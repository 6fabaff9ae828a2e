import Mathlib.Data.List.Nodup
import Mathlib.Data.List.TakeWhile
import Mathlib.Logic.Function.Basic
import Mathlib.Tactic

/-! Singly linked lists in a memory of nodes, and the walk along one of them with a pointer to
the cell that holds the next node. -/

namespace FileSharing.Library

variable {κ ι : Type}

structure Links (κ ι : Type) where
  head : κ → Option ι
  next : ι → Option ι

inductive Cell (κ ι : Type) where
  | head (k : κ)
  | next (a : ι)

def Links.read (l : Links κ ι) : Cell κ ι → Option ι
  | .head k => l.head k
  | .next a => l.next a

def Links.write [DecidableEq κ] [DecidableEq ι] (l : Links κ ι) (cell : Cell κ ι) (p : Option ι) :
    Links κ ι :=
  match cell with
  | .head k => { l with head := Function.update l.head k p }
  | .next a => { l with next := Function.update l.next a p }

def Links.seek (l : Links κ ι) (stop : ι → Bool) : Nat → Cell κ ι → Option (Cell κ ι)
  | 0, _ => none
  | fuel + 1, cell =>
      match l.read cell with
      | none => some cell
      | some a => if stop a then some cell else l.seek stop fuel (.next a)

/-- The nodes that are reached from a pointer, in order, up to the end of the list. -/
def Chain (next : ι → Option ι) : Option ι → List ι → Prop
  | p, [] => p = none
  | p, a :: rest => p = some a ∧ Chain next (next a) rest

def lastCell : Cell κ ι → List ι → Cell κ ι
  | cell, [] => cell
  | _, a :: rest => lastCell (.next a) rest

theorem Chain.congr {next next' : ι → Option ι} {p : Option ι} {nodes : List ι}
    (chain : Chain next p nodes) (same : ∀ a ∈ nodes, next' a = next a) : Chain next' p nodes := by
  induction nodes generalizing p with
  | nil => exact chain
  | cons a rest ih =>
      refine ⟨chain.1, ?_⟩
      rw [same a List.mem_cons_self]
      exact ih chain.2 fun b member => same b (List.mem_cons_of_mem a member)

section Walk

variable {l : Links κ ι} {cell : Cell κ ι} {before after : List ι}

theorem Chain.behind (chain : Chain l.next (l.read cell) (before ++ after)) :
    Chain l.next (l.read (lastCell cell before)) after := by
  induction before generalizing cell with
  | nil => exact chain
  | cons a rest ih =>
      have rest' : Chain l.next (l.read (.next a)) (rest ++ after) := chain.2
      exact ih rest'

theorem seek_chain {stop : ι → Bool} {fuel : Nat}
    (chain : Chain l.next (l.read cell) (before ++ after)) (goes : ∀ a ∈ before, stop a = false)
    (stops : ∀ a ∈ after.head?, stop a = true) (enough : before.length < fuel) :
    l.seek stop fuel cell = some (lastCell cell before) := by
  induction before generalizing cell fuel with
  | nil =>
      obtain ⟨fuel, rfl⟩ := Nat.exists_eq_succ_of_ne_zero enough.ne'
      rw [Links.seek]
      cases after with
      | nil =>
          have none : l.read cell = none := chain
          rw [none]
          rfl
      | cons a rest =>
          rw [chain.1]
          exact if_pos (stops a rfl)
  | cons a rest ih =>
      cases fuel with
      | zero => cases enough
      | succ fuel =>
          have on := goes a List.mem_cons_self
          rw [Links.seek, chain.1]
          dsimp only
          rw [on, if_neg Bool.false_ne_true]
          have rest' : Chain l.next (l.read (.next a)) (rest ++ after) := chain.2
          exact ih rest' (fun b member => goes b (List.mem_cons_of_mem a member))
            (Nat.lt_of_succ_lt_succ enough)

theorem seek_find {stop : ι → Bool} {fuel : Nat} {nodes : List ι}
    (chain : Chain l.next (l.read cell) nodes) (enough : nodes.length < fuel) :
    ∃ found, l.seek stop fuel cell = some found ∧ l.read found = nodes.find? stop := by
  have whole : nodes.takeWhile (fun a => !stop a) ++ nodes.dropWhile (fun a => !stop a) = nodes :=
    List.takeWhile_append_dropWhile
  have first : nodes.find? stop = (nodes.dropWhile fun a => !stop a).head? :=
    List.find?_eq_head?_dropWhile_not stop nodes
  rw [← whole] at chain
  refine ⟨lastCell cell (nodes.takeWhile fun a => !stop a), ?_, ?_⟩
  · apply seek_chain chain
    · intro a member
      have on := List.mem_takeWhile_imp member
      rwa [Bool.not_eq_true'] at on
    · intro a member
      rw [← first] at member
      exact List.find?_some member
    · have fits := (List.takeWhile_prefix fun a => !stop a : nodes.takeWhile _ <+: nodes).length_le
      omega
  · have behind := chain.behind
    rw [first]
    generalize nodes.dropWhile (fun a => !stop a) = after at behind
    cases after with
    | nil => exact behind
    | cons a rest => exact behind.1

theorem lastCell_cons (cell : Cell κ ι) (a : ι) (rest : List ι) :
    ∃ b ∈ a :: rest, lastCell cell (a :: rest) = .next b := by
  induction rest generalizing cell a with
  | nil => exact ⟨a, List.mem_cons_self, rfl⟩
  | cons c rest ih =>
      obtain ⟨b, member, last⟩ := ih (.next a) c
      exact ⟨b, List.mem_cons_of_mem a member, last⟩

theorem lastCell_ne {other : Cell κ ι} (apart : cell ≠ other)
    (outside : ∀ b ∈ before, other ≠ .next b) : lastCell cell before ≠ other := by
  cases before with
  | nil => exact apart
  | cons a rest =>
      obtain ⟨b, member, last⟩ := lastCell_cons cell a rest
      rw [last]
      exact (outside b member).symm

variable [DecidableEq κ] [DecidableEq ι]

theorem write_comm {other : Cell κ ι} (apart : cell ≠ other) (l : Links κ ι) (p q : Option ι) :
    (l.write cell p).write other q = (l.write other q).write cell p := by
  cases cell with
  | head k =>
      cases other with
      | head j =>
          have different : k ≠ j := fun same => apart (congrArg Cell.head same)
          simp only [Links.write, Function.update_comm different]
      | next a => rfl
  | next b =>
      cases other with
      | head j => rfl
      | next a =>
          have different : b ≠ a := fun same => apart (congrArg Cell.next same)
          simp only [Links.write, Function.update_comm different]

theorem read_write (l : Links κ ι) (cell : Cell κ ι) (p : Option ι) :
    (l.write cell p).read cell = p := by
  cases cell with
  | head k => exact Function.update_self k p l.head
  | next a => exact Function.update_self a p l.next

theorem read_write_apart {other : Cell κ ι} {p : Option ι} (apart : other ≠ cell) :
    (l.write cell p).read other = l.read other := by
  cases cell with
  | head k =>
      cases other with
      | head j => exact Function.update_of_ne (fun same => apart (congrArg Cell.head same)) _ _
      | next a => rfl
  | next b =>
      cases other with
      | head j => rfl
      | next a => exact Function.update_of_ne (fun same => apart (congrArg Cell.next same)) _ _

theorem read_head_write (l : Links κ ι) (a : ι) (p : Option ι) (k : κ) :
    (l.write (.next a) p).read (.head k) = l.read (.head k) := rfl

theorem Chain.write_apart {p q : Option ι} {nodes : List ι} (chain : Chain l.next q nodes)
    (apart : ∀ a ∈ nodes, cell ≠ .next a) : Chain (l.write cell p).next q nodes := by
  apply chain.congr
  intro a member
  have other : (.next a : Cell κ ι) ≠ cell := (apart a member).symm
  exact read_write_apart other

theorem Chain.hang {p : Option ι} {hung : List ι}
    (chain : Chain l.next (l.read cell) (before ++ after)) (nodup : before.Nodup)
    (outside : ∀ a ∈ before, cell ≠ .next a)
    (tail : Chain (l.write (lastCell cell before) p).next p hung) :
    Chain (l.write (lastCell cell before) p).next ((l.write (lastCell cell before) p).read cell)
      (before ++ hung) := by
  induction before generalizing cell with
  | nil =>
      change Chain (l.write cell p).next ((l.write cell p).read cell) hung
      rw [read_write]
      exact tail
  | cons a rest ih =>
      obtain ⟨first, later⟩ := List.nodup_cons.mp nodup
      obtain ⟨b, member, last⟩ := lastCell_cons cell a rest
      constructor
      · rw [last, read_write_apart (outside b member)]
        exact chain.1
      · have rest' : Chain l.next (l.read (.next a)) (rest ++ after) := chain.2
        have others (c : ι) (inside : c ∈ rest) : (.next a : Cell κ ι) ≠ .next c :=
          fun same => first (Cell.next.inj same ▸ inside)
        exact ih rest' later others tail

theorem Chain.unlink {a : ι} (chain : Chain l.next (l.read cell) (before ++ a :: after))
    (nodup : (before ++ a :: after).Nodup) (outside : ∀ b ∈ before ++ a :: after, cell ≠ .next b) :
    Chain (l.write (lastCell cell before) (l.next a)).next
      ((l.write (lastCell cell before) (l.next a)).read cell) (before ++ after) := by
  obtain ⟨first, -, disjoint⟩ := List.nodup_append.mp nodup
  have rest : Chain l.next (l.next a) after := chain.behind.2
  have tail : Chain (l.write (lastCell cell before) (l.next a)).next (l.next a) after := by
    apply rest.write_apart
    intro b member
    have later : b ∈ a :: after := List.mem_cons_of_mem a member
    apply lastCell_ne (outside b (List.mem_append_right _ later))
    intro c inside same
    exact disjoint c inside b later (Cell.next.inj same).symm
  exact chain.hang first (fun b member => outside b (List.mem_append_left _ member)) tail

end Walk

end FileSharing.Library
