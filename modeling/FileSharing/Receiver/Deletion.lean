import FileSharing.Receiver.HashTable

/-! `hdel`: nodes go back to the pool of the hash table and are used again. -/

namespace FileSharing

open Library

namespace Hash

/-- `hdel` behind the walk: the node leaves its chain and becomes the first one of the pool. -/
def remove (htable : HashTable) (temp : Cell Nat Nat) (freedNode : Nat) : HashTable :=
  let unlinked := htable.store temp (htable.nodes freedNode).next
  let counted := { unlinked with availableNodeCount := unlinked.availableNodeCount + 1 }
  { counted.store (.next freedNode) counted.nodepool with nodepool := some freedNode }

def hdel (htable : HashTable) (key : List UInt8) : Option (Int × HashTable) :=
  let hash := hgetHash htable key
  if hash = -1 then some (-1, htable)
  else do
    let temp ← walk htable (fun a => sameKey (htable.nodes a).key key) hash
    match htable.links.read temp with
    | none => return (-2, htable)
    | some freedNode => return (0, remove htable temp freedNode)

section Removal

variable {htable : HashTable} {chains : Nat → List Nat} {pool : List Nat} {i a : Nat}
  {temp : Cell Nat Nat}

theorem nodepool_store (htable : HashTable) (temp : Cell Nat Nat) (p : Option Nat) :
    (htable.store temp p).nodepool = htable.nodepool := by
  cases temp with
  | head i => rfl
  | next a => rfl

theorem links_remove : (remove htable temp a).links =
    (htable.links.write temp (htable.nodes a).next).write (.next a) htable.nodepool := by
  have first := links_store htable temp (htable.nodes a).next
  have kept := nodepool_store htable temp (htable.nodes a).next
  calc
    (remove htable temp a).links = ((htable.store temp (htable.nodes a).next).store (.next a)
        (htable.store temp (htable.nodes a).next).nodepool).links := rfl
    _ = (htable.links.write temp (htable.nodes a).next).write (.next a) htable.nodepool := by
      rw [links_store, first, kept]

theorem size_remove : (remove htable temp a).tableSize = htable.tableSize ∧
    (remove htable temp a).availableNodeCount = htable.availableNodeCount + 1 := by
  obtain ⟨size, count⟩ := size_store htable temp (htable.nodes a).next
  exact ⟨size, congrArg (· + 1) count⟩

theorem node_remove (b : Nat) : ((remove htable temp a).nodes b).key = (htable.nodes b).key ∧
    ((remove htable temp a).nodes b).value = (htable.nodes b).value := by
  let unlinked := htable.store temp (htable.nodes a).next
  obtain ⟨key, value⟩ := node_store htable temp (htable.nodes a).next b
  obtain ⟨key', value'⟩ := node_store unlinked (.next a) unlinked.nodepool b
  exact ⟨key'.trans key, value'.trans value⟩

def without (htable : HashTable) (chains : Nat → List Nat) (key : List UInt8) : List Nat :=
  (chains (index htable.tableSize key)).eraseP fun a => sameKey (htable.nodes a).key key

section Unlink

variable {before after : List Nat} (rep : Represents htable chains pool)
  (inside : i < htable.tableSize) (split : chains i = before ++ a :: after)

include rep inside split

theorem remove_chain : Chain (remove htable (lastCell (.head i) before) a).links.next
    ((remove htable (lastCell (.head i) before) a).table i) (before ++ after) := by
  have nodup : (before ++ a :: after).Nodup := split ▸ rep.chain_nodup inside
  have chain : Chain htable.links.next (htable.links.read (.head i)) (before ++ a :: after) :=
    split ▸ rep.chain i inside
  have cut := chain.unlink nodup nofun
  have left : a ∉ before ++ after := (List.nodup_cons.mp (List.perm_middle.nodup_iff.mp nodup)).1
  change Chain _ ((remove htable (lastCell (.head i) before) a).links.read (.head i)) _
  rw [links_remove, read_head_write]
  apply cut.write_apart
  intro b member same
  exact left (Cell.next.inj same ▸ member)

theorem remove_other {j : Nat} (other : j < htable.tableSize) (apart : j ≠ i) :
    Chain (remove htable (lastCell (.head i) before) a).links.next
      ((remove htable (lastCell (.head i) before) a).table j) (chains j) := by
  have early (b : Nat) (member : b ∈ before) : b ∈ chains i :=
    split ▸ List.mem_append_left _ member
  have freed : a ∈ chains i := split ▸ List.mem_append_right _ List.mem_cons_self
  have unmet : (.head j : Cell Nat Nat) ≠ lastCell (.head i) before :=
    (lastCell_ne (fun same => apart (Cell.head.inj same).symm) nofun).symm
  change Chain _ ((remove htable (lastCell (.head i) before) a).links.read (.head j)) _
  rw [links_remove, read_head_write, read_write_apart unmet]
  have cut : Chain (htable.links.write (lastCell (.head i) before) (htable.nodes a).next).next
      (htable.table j) (chains j) := by
    apply (rep.chain j other).write_apart
    intro b member
    apply lastCell_ne (by simp)
    intro c present same
    exact apart (rep.apart other inside member (Cell.next.inj same ▸ early c present))
  apply cut.write_apart
  intro b member same
  exact apart (rep.apart other inside member (Cell.next.inj same ▸ freed))

theorem remove_pool : Chain (remove htable (lastCell (.head i) before) a).links.next
    (some a) (a :: pool) := by
  have early (b : Nat) (member : b ∈ before) : b ∈ chains i :=
    split ▸ List.mem_append_left _ member
  have freed : a ∈ chains i := split ▸ List.mem_append_right _ List.mem_cons_self
  have cut : Chain (htable.links.write (lastCell (.head i) before) (htable.nodes a).next).next
      htable.nodepool pool := by
    apply rep.free.write_apart
    intro b member
    apply lastCell_ne (by simp)
    intro c present same
    exact rep.apart_pool inside (early c present) (Cell.next.inj same ▸ member)
  refine ⟨rfl, ?_⟩
  change Chain _ ((remove htable (lastCell (.head i) before) a).links.read (.next a)) _
  rw [links_remove, read_write]
  apply cut.write_apart
  intro b member same
  exact rep.apart_pool inside freed (Cell.next.inj same ▸ member)

theorem remove_represents : Represents (remove htable (lastCell (.head i) before) a)
    (Function.update chains i (before ++ after)) (a :: pool) := by
  obtain ⟨size, count⟩ := @size_remove htable a (lastCell (.head i) before)
  constructor
  · intro j other
    rw [size] at other
    by_cases same : j = i
    · subst same
      rw [Function.update_self]
      exact remove_chain rep inside split
    · rw [Function.update_of_ne same]
      exact remove_other rep inside split other same
  · exact remove_pool rep inside split
  · have back : (chains i).Perm (Function.update chains i (before ++ after) i ++ [a]) := by
      rw [Function.update_self, split]
      exact List.perm_middle.trans (List.perm_append_singleton a _).symm
    have shrunk := flatMap_update List.nodup_range (List.mem_range.mpr inside) back
    rw [Function.update_idem, Function.update_eq_self] at shrunk
    have whole := (shrunk.append_right pool).symm
    rw [List.append_assoc] at whole
    rw [size]
    exact whole.trans rep.nodes
  · rw [count, rep.count, List.length_cons]
  · exact size.symm ▸ rep.positive
  · exact size.symm ▸ rep.small

end Unlink

structure Del (htable : HashTable) (chains : Nat → List Nat) (pool : List Nat) (a : Nat)
    (key : List UInt8) (htable' : HashTable) : Prop where
  rep : Represents htable' (Function.update chains (index htable.tableSize key)
    (without htable chains key)) (a :: pool)
  tableSize : htable'.tableSize = htable.tableSize
  nodes : ∀ b, (htable'.nodes b).key = (htable.nodes b).key ∧
    (htable'.nodes b).value = (htable.nodes b).value

theorem hdel_ok (rep : Represents htable chains pool) (key : List UInt8) :
    (holder htable chains key = none ∧ hdel htable key = some (-2, htable)) ∨
      ∃ a htable', holder htable chains key = some a ∧ hdel htable key = some (0, htable') ∧
        Del htable chains pool a key htable' := by
  have inside := index_lt rep.positive key
  have hash := hgetHash_eq rep.positive rep.small key
  let i := index htable.tableSize key
  have minus : ¬ hgetHash htable key = -1 := by
    rw [hash]
    omega
  have chain : Chain htable.links.next (htable.links.read (.head i)) (chains i) :=
    rep.chain i inside
  cases found : (chains i).find? fun a => sameKey (htable.nodes a).key key with
  | none =>
      refine .inl ⟨found, ?_⟩
      obtain ⟨temp, walked, read⟩ := @seek_find _ _ _ _
        (fun a => sameKey (htable.nodes a).key key) _ _ chain (rep.short inside)
      rw [found] at read
      have search : walk htable (fun a => sameKey (htable.nodes a).key key) (hgetHash htable key) =
          some temp := by
        rw [hash]
        exact walked
      simp only [hdel, if_neg minus, search, Option.bind_eq_bind, Option.bind_some, read]
      rfl
  | some a =>
      obtain ⟨stop, before, after, split, goes⟩ := List.find?_eq_some_iff_append.mp found
      have on (b : Nat) (member : b ∈ before) : sameKey (htable.nodes b).key key = false := by
        simpa using goes b member
      rw [split] at chain
      have fits : before.length < htable.tableSize + 1 := by
        have short := rep.short inside
        change (chains i).length < _ at short
        rw [split, List.length_append] at short
        omega
      have stops : ∀ b ∈ (a :: after).head?, sameKey (htable.nodes b).key key = true := by
        intro b first
        rwa [← Option.some.inj first]
      have search : walk htable (fun a => sameKey (htable.nodes a).key key) (hgetHash htable key) =
          some (lastCell (.head i) before) := by
        rw [hash]
        exact seek_chain chain on stops fits
      have read : htable.links.read (lastCell (.head i) before) = some a := chain.behind.1
      have shorter : without htable chains key = before ++ after := by
        change (chains i).eraseP _ = _
        rw [split, List.eraseP_append_right _ (fun b member => by simp [on b member]),
          List.eraseP_cons, stop, cond_true]
      refine .inr ⟨a, remove htable (lastCell (.head i) before) a, found, ?_, ?_, size_remove.1,
        node_remove⟩
      · simp only [hdel, if_neg minus, search, Option.bind_eq_bind, Option.bind_some, read]
        rfl
      · rw [shorter]
        exact remove_represents rep inside split

end Removal

inductive Call (V : Type) where
  | put (k : Key) (v : V)
  | get (k : Key)
  | del (k : Key)

/-- The result of a call and the table behind it; the values are numbers of type `int`. -/
def perform {V : Type} (int : V → Int) (htable : HashTable) : Call V → Option (Int × HashTable)
  | .put k v => hput htable k.text (int v)
  | .get k => (hget htable k.text).map fun value => (value, htable)
  | .del k => hdel htable k.text

def next {V : Type} (int : V → Int) (htable : HashTable) (call : Call V) : Option HashTable :=
  (perform int htable call).map Prod.snd

section Linking

variable {V : Type} {int : V → Int} {htable : HashTable} {size : Nat}
  {chains : Nat → List Nat} {pool : List Nat}

/-- The nodes are shared out between chains and pool, and `hput` refuses exactly if there is none
in the pool. -/
structure Linked (size : Nat) (htable : HashTable) (chains : Nat → List Nat) (pool : List Nat) :
    Prop where
  represents : Represents htable chains pool
  tableSize : htable.tableSize = size
  hash : ∀ k : Key, 0 ≤ hgetHash htable k.text ∧ hgetHash htable k.text < size
  put : ∀ (k : Key) (value : BitVec 32), ∃ result htable',
    hput htable k.text value.toInt = some (result, htable') ∧ (result ≠ 0 ↔ pool = []) ∧
      (result ≠ 0 → htable' = htable)

theorem next_represents (rep : Represents htable chains pool) (call : Call V) :
    ∃ htable', next int htable call = some htable' ∧ htable'.tableSize = htable.tableSize ∧
      ∃ chains' pool', Represents htable' chains' pool' := by
  cases call with
  | put k v =>
      cases pool with
      | nil =>
          have full := hput_full rep k.text (int v)
          exact ⟨htable, congrArg (Option.map Prod.snd) full, rfl, chains, [], rep⟩
      | cons a rest =>
          obtain ⟨htable', done, put⟩ := hput_ok rep k.text (int v)
          exact ⟨htable', congrArg (Option.map Prod.snd) done, put.tableSize, _, rest, put.rep⟩
  | get k =>
      have found : next int htable (.get k) = some htable := by
        simp only [next, perform, hget_ok rep, Option.map_some]
      exact ⟨htable, found, rfl, chains, pool, rep⟩
  | del k =>
      cases hdel_ok rep k.text with
      | inl missed =>
          have done := congrArg (Option.map Prod.snd) missed.2
          exact ⟨htable, done, rfl, chains, pool, rep⟩
      | inr freed =>
          obtain ⟨a, htable', -, done, del⟩ := freed
          have moved := congrArg (Option.map Prod.snd) done
          exact ⟨htable', moved, del.tableSize, _, a :: pool, del.rep⟩

theorem linked_of_represents (rep : Represents htable chains pool) :
    Linked htable.tableSize htable chains pool := by
  refine ⟨rep, rfl, fun k => ?_, fun k value => ?_⟩
  · have below := index_lt rep.positive k.text
    rw [hgetHash_eq rep.positive rep.small]
    omega
  · cases pool with
    | nil => exact ⟨-1, htable, hput_full rep _ _, by simp, fun _ => rfl⟩
    | cons a rest =>
        obtain ⟨htable', done, -⟩ := hput_ok rep k.text value.toInt
        exact ⟨0, htable', done, by simp, fun failed => absurd rfl failed⟩

/-- In whatever order the functions are called, the nodes stay in order. -/
theorem linked_after (positive : 0 < size) (small : size < 2 ^ 31) (calls : List (Call (BitVec 32))) :
    ∃ htable chains pool, run (next BitVec.toInt) (hcreateTable size) calls = some htable ∧
      Linked size htable chains pool := by
  let inv (htable : HashTable) : Prop :=
    htable.tableSize = size ∧ ∃ chains pool, Represents htable chains pool
  have start : inv (hcreateTable size) :=
    ⟨(allocated_all size size).tableSize, _, _, represents_create positive small⟩
  have keeps (htable : HashTable) (call : Call (BitVec 32)) (kept : inv htable) :
      ∃ htable', next BitVec.toInt htable call = some htable' ∧ inv htable' := by
    obtain ⟨known, chains, pool, rep⟩ := kept
    obtain ⟨htable', moved, same, linked⟩ := next_represents rep call
    exact ⟨htable', moved, same.trans known, linked⟩
  obtain ⟨htable, done, known, chains, pool, rep⟩ := run_total keeps start calls
  exact ⟨htable, chains, pool, done, known ▸ linked_of_represents rep⟩

theorem linked_twice : ∃ htable chains pool, run (next BitVec.toInt) (hcreateTable 1)
    [.put localhost (7 : BitVec 32), .put localhost 8, .del localhost, .del localhost] =
      some htable ∧ Linked 1 htable chains pool :=
  linked_after (by decide) (by decide) _

end Linking

end Hash

end FileSharing
