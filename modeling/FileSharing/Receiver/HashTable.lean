import FileSharing.Library.Chains
import FileSharing.Library.Memory
import FileSharing.Library.Runs

/-! The hash table of `receiver`: chains of nodes that are taken from a pool. -/

namespace FileSharing

open Library

namespace Hash

def hashSeed : BitVec 32 := 1009

structure DataNode where
  key : Memory
  value : BitVec 32
  next : Option Nat

def DataNode.blank : DataNode := ⟨fun _ => 0, 0, none⟩

/-- The pointers are numbers of nodes. -/
structure HashTable where
  nodes : Nat → DataNode
  table : Nat → Option Nat
  nodepool : Option Nat
  availableNodeCount : Nat
  tableSize : Nat

namespace HashTable

def links (htable : HashTable) : Links Nat Nat := ⟨htable.table, fun a => (htable.nodes a).next⟩

def setNode (htable : HashTable) (a : Nat) (node : DataNode) : HashTable :=
  { htable with nodes := Function.update htable.nodes a node }

def store (htable : HashTable) (temp : Cell Nat Nat) (p : Option Nat) : HashTable :=
  match temp with
  | .head i => { htable with table := Function.update htable.table i p }
  | .next a => htable.setNode a { htable.nodes a with next := p }

end HashTable

/-- `hash = ((hash << 5) + hash) + key[i]`, where a character is signed. -/
def hashStep (hash : BitVec 32) (c : UInt8) : BitVec 32 :=
  ((hash <<< 5) + hash) + c.toBitVec.signExtend 32

/-- The remainder is taken of an unsigned number. -/
def hgetHash (htable : HashTable) (key : List UInt8) : Int :=
  (BitVec.ofNat 32 ((key.foldl hashStep hashSeed).toNat % htable.tableSize)).toInt

def sameKey (m : Memory) (key : List UInt8) : Bool := slice m 0 (key.length + 1) = key ++ [0]

/-- `datanode **temp` walks a chain; a chain has at most `tableSize` nodes. -/
def walk (htable : HashTable) (stop : Nat → Bool) (hash : Int) : Option (Cell Nat Nat) :=
  htable.links.seek stop (htable.tableSize + 1) (.head hash.toNat)

/-- `hput` behind the walk: the node leaves the pool and is filled. -/
def insert (htable : HashTable) (temp : Cell Nat Nat) (node : Nat) (key : List UInt8)
    (value : Int) : HashTable :=
  let linked := htable.store temp (some node)
  let taken := { linked with nodepool := (linked.nodes node).next }
  let filled := taken.setNode node
    ⟨copyTo (taken.nodes node).key 0 key, BitVec.ofInt 32 value, none⟩
  { filled with availableNodeCount := filled.availableNodeCount - 1 }

/-- The result and the table; none where the pool's null pointer would be followed. -/
def hput (htable : HashTable) (key : List UInt8) (value : Int) : Option (Int × HashTable) :=
  if htable.availableNodeCount < 1 then some (-1, htable)
  else
    let hash := hgetHash htable key
    if hash = -1 then some (-2, htable)
    else do
      let temp ← walk htable (fun _ => false) hash
      let node ← htable.nodepool
      return (0, insert htable temp node key value)

def hget (htable : HashTable) (key : List UInt8) : Option Int :=
  let hash := hgetHash htable key
  if hash = -1 then some (-1)
  else do
    let temp ← walk htable (fun a => sameKey (htable.nodes a).key key) hash
    match htable.links.read temp with
    | none => return -2
    | some a => return (htable.nodes a).value.toInt

/-- One turn of the loop that allocates the nodes, with `temp`. -/
def allocate : HashTable × Option Nat → Nat → HashTable × Option Nat
  | (htable, temp), newnode =>
      let fresh := htable.setNode newnode .blank
      match temp with
      | none => ({ fresh with nodepool := some newnode }, some newnode)
      | some last => (fresh.store (.next last) (some newnode), some newnode)

/-- `hcreate_table` when every `calloc` succeeds; the nodes are numbered in their order. -/
def hcreateTable (size : Nat) : HashTable :=
  ((List.range size).foldl allocate (⟨fun _ => .blank, fun _ => none, none, size, size⟩, none)).1

/-- A key that the callers make: a string of at most 19 characters. -/
@[ext] structure Key where
  text : List UInt8
  noNul : 0 ∉ text
  short : text.length ≤ 19
  deriving DecidableEq

abbrev Value := Fin (2 ^ 31)

/-- The chains and the pool are lists without cycles, no node is in two of them, and together
they hold the nodes that were allocated. -/
structure Represents (htable : HashTable) (chains : Nat → List Nat) (pool : List Nat) : Prop where
  chain : ∀ i < htable.tableSize, Chain htable.links.next (htable.table i) (chains i)
  free : Chain htable.links.next htable.nodepool pool
  nodes : ((List.range htable.tableSize).flatMap chains ++ pool).Perm (List.range htable.tableSize)
  count : htable.availableNodeCount = pool.length
  positive : 0 < htable.tableSize
  small : htable.tableSize < 2 ^ 31

section Hashing

variable {htable : HashTable}

def index (size : Nat) (key : List UInt8) : Nat := (key.foldl hashStep hashSeed).toNat % size

theorem index_lt {size : Nat} (positive : 0 < size) (key : List UInt8) : index size key < size :=
  Nat.mod_lt _ positive

theorem hgetHash_eq (positive : 0 < htable.tableSize) (small : htable.tableSize < 2 ^ 31)
    (key : List UInt8) : hgetHash htable key = index htable.tableSize key := by
  have below := index_lt positive key
  have value : (BitVec.ofNat 32 (index htable.tableSize key)).toNat =
      index htable.tableSize key := by
    rw [BitVec.toNat_ofNat]
    exact Nat.mod_eq_of_lt (by omega)
  change (BitVec.ofNat 32 (index htable.tableSize key)).toInt = _
  rw [BitVec.toInt_eq_toNat_of_lt (by rw [value]; omega), value]

end Hashing

section Chains

variable {htable : HashTable} {chains : Nat → List Nat} {pool : List Nat} {i : Nat}

theorem links_store (htable : HashTable) (temp : Cell Nat Nat) (p : Option Nat) :
    (htable.store temp p).links = htable.links.write temp p := by
  cases temp with
  | head i => rfl
  | next a =>
      simp only [HashTable.store, HashTable.setNode, HashTable.links, Links.write]
      congr 1
      funext b
      by_cases same : b = a
      · subst same
        simp
      · simp [same]

theorem node_store (htable : HashTable) (temp : Cell Nat Nat) (p : Option Nat) (b : Nat) :
    ((htable.store temp p).nodes b).key = (htable.nodes b).key ∧
      ((htable.store temp p).nodes b).value = (htable.nodes b).value := by
  cases temp with
  | head i => exact ⟨rfl, rfl⟩
  | next a =>
      by_cases same : b = a
      · subst same
        simp [HashTable.store, HashTable.setNode]
      · simp [HashTable.store, HashTable.setNode, same]

theorem Represents.nodup (rep : Represents htable chains pool) :
    ((List.range htable.tableSize).flatMap chains ++ pool).Nodup :=
  rep.nodes.nodup_iff.mpr List.nodup_range

theorem Represents.chain_nodup (rep : Represents htable chains pool)
    (inside : i < htable.tableSize) : (chains i).Nodup := by
  have whole := (List.nodup_append.mp rep.nodup).1
  exact (List.nodup_flatMap.mp whole).1 i (List.mem_range.mpr inside)

theorem Represents.apart_pool (rep : Represents htable chains pool)
    (inside : i < htable.tableSize) {a : Nat} (member : a ∈ chains i) : a ∉ pool := by
  intro pooled
  have present := List.mem_flatMap.mpr ⟨i, List.mem_range.mpr inside, member⟩
  exact (List.nodup_append.mp rep.nodup).2.2 a present a pooled rfl

theorem Represents.apart (rep : Represents htable chains pool) {j : Nat}
    (inside : i < htable.tableSize) (other : j < htable.tableSize) {a : Nat}
    (member : a ∈ chains i) (shared : a ∈ chains j) : i = j := by
  have whole := (List.nodup_append.mp rep.nodup).1
  by_contra different
  have : Std.Symm (Function.onFun List.Disjoint chains) := ⟨fun _ _ apart => apart.symm⟩
  have disjoint : (chains i).Disjoint (chains j) :=
    (List.nodup_flatMap.mp whole).2.forall (List.mem_range.mpr inside) (List.mem_range.mpr other)
      different
  exact disjoint member shared

theorem Represents.short (rep : Represents htable chains pool) (inside : i < htable.tableSize) :
    (chains i).length < htable.tableSize + 1 := by
  have part : (chains i).Sublist ((List.range htable.tableSize).flatMap chains ++ pool) :=
    (List.sublist_flatten_of_mem (List.mem_map_of_mem (List.mem_range.mpr inside))).trans
      (List.sublist_append_left _ _)
  have fits := part.length_le
  rw [rep.nodes.length_eq, List.length_range] at fits
  exact Nat.lt_succ_of_le fits

theorem flatMap_update {indices more extra : List Nat} (nodup : indices.Nodup) (member : i ∈ indices)
    (grown : more.Perm (chains i ++ extra)) :
    (indices.flatMap (Function.update chains i more)).Perm (indices.flatMap chains ++ extra) := by
  induction indices with
  | nil => cases member
  | cons j rest ih =>
      obtain ⟨first, later⟩ := List.nodup_cons.mp nodup
      rw [List.flatMap_cons, List.flatMap_cons]
      cases List.mem_cons.mp member with
      | inl same =>
          subst same
          have unchanged : rest.flatMap (Function.update chains i more) = rest.flatMap chains := by
            apply List.flatMap_congr
            intro k inside
            exact Function.update_of_ne (fun equal : k = i => first (equal ▸ inside)) _ _
          rw [Function.update_self, unchanged]
          calc
            (more ++ rest.flatMap chains).Perm ((chains i ++ extra) ++ rest.flatMap chains) :=
              grown.append_right _
            _ |>.Perm (chains i ++ (extra ++ rest.flatMap chains)) :=
              .of_eq (List.append_assoc _ _ _)
            _ |>.Perm (chains i ++ (rest.flatMap chains ++ extra)) :=
              List.perm_append_comm.append_left _
            _ |>.Perm ((chains i ++ rest.flatMap chains) ++ extra) :=
              .of_eq (List.append_assoc _ _ _).symm
      | inr inside =>
          have apart : j ≠ i := fun equal => first (equal ▸ inside)
          rw [Function.update_of_ne apart, List.append_assoc]
          exact List.Perm.append_left _ (ih later inside)

theorem hput_full (rep : Represents htable chains []) (key : List UInt8) (value : Int) :
    hput htable key value = some (-1, htable) := by
  have none : htable.availableNodeCount < 1 := by
    rw [rep.count]
    exact Nat.one_pos
  rw [hput, if_pos none]

theorem size_store (htable : HashTable) (temp : Cell Nat Nat) (p : Option Nat) :
    (htable.store temp p).tableSize = htable.tableSize ∧
      (htable.store temp p).availableNodeCount = htable.availableNodeCount := by
  cases temp with
  | head i => exact ⟨rfl, rfl⟩
  | next a => exact ⟨rfl, rfl⟩

def Links.put (l : Links Nat Nat) (i : Nat) (nodes : List Nat) (a : Nat) : Links Nat Nat :=
  (l.write (.next a) none).write (lastCell (.head i) nodes) (some a)

section Put

variable {a : Nat} {rest : List Nat} (rep : Represents htable chains (a :: rest))
  (inside : i < htable.tableSize)

include rep inside

theorem temp_apart : lastCell (.head i) (chains i) ≠ (.next a : Cell Nat Nat) := by
  apply lastCell_ne (by simp)
  intro b member same
  exact rep.apart_pool inside member (Cell.next.inj same ▸ List.mem_cons_self)

theorem put_chain : Chain (Links.put htable.links i (chains i) a).next
    ((Links.put htable.links i (chains i) a).head i) (chains i ++ [a]) := by
  have pooled (b : Nat) (member : b ∈ chains i) : (.next a : Cell Nat Nat) ≠ .next b := by
    intro same
    exact rep.apart_pool inside member (Cell.next.inj same ▸ List.mem_cons_self)
  have cut : Chain (htable.links.write (.next a) none).next (htable.table i) (chains i ++ []) := by
    rw [List.append_nil]
    exact (rep.chain i inside).write_apart pooled
  have tail : Chain (Links.put htable.links i (chains i) a).next (some a) [a] := by
    refine ⟨rfl, ?_⟩
    have read := read_write_apart (l := htable.links.write (.next a) none) (p := some a)
      (temp_apart rep inside).symm
    change (Links.put htable.links i (chains i) a).read (.next a) = none
    exact read.trans (read_write htable.links (.next a) none)
  have start : Chain (htable.links.write (.next a) none).next
      ((htable.links.write (.next a) none).read (.head i)) (chains i ++ []) := cut
  exact start.hang (rep.chain_nodup inside) nofun tail

theorem put_other {j : Nat} (other : j < htable.tableSize) (apart : j ≠ i) :
    Chain (Links.put htable.links i (chains i) a).next
      ((Links.put htable.links i (chains i) a).head j) (chains j) := by
  have head : (Links.put htable.links i (chains i) a).read (.head j) = htable.table j := by
    have unmet : lastCell (.head i) (chains i) ≠ (.head j : Cell Nat Nat) :=
      lastCell_ne (fun same => apart (Cell.head.inj same).symm) nofun
    exact (read_write_apart unmet.symm).trans (read_write_apart nofun)
  change Chain _ ((Links.put htable.links i (chains i) a).read (.head j)) _
  rw [head]
  have cut : Chain (htable.links.write (.next a) none).next (htable.table j) (chains j) := by
    apply (rep.chain j other).write_apart
    intro b member same
    exact rep.apart_pool other member (Cell.next.inj same ▸ List.mem_cons_self)
  apply cut.write_apart
  intro b member
  apply lastCell_ne (by simp)
  intro c present same
  obtain rfl := Cell.next.inj same
  exact apart (rep.apart other inside member present)

theorem put_pool :
    Chain (Links.put htable.links i (chains i) a).next (htable.nodes a).next rest := by
  have nodup := (List.nodup_append.mp rep.nodup).2.1
  have cut : Chain (htable.links.write (.next a) none).next (htable.nodes a).next rest := by
    apply Chain.write_apart rep.free.2
    intro b member same
    exact (List.nodup_cons.mp nodup).1 (Cell.next.inj same ▸ member)
  apply cut.write_apart
  intro b member
  apply lastCell_ne (by simp)
  intro c present same
  obtain rfl := Cell.next.inj same
  exact rep.apart_pool inside present (List.mem_cons_of_mem a member)

end Put

section Insert

variable {temp : Cell Nat Nat} {a : Nat} {key : List UInt8} {value : Int}

theorem links_insert (apart : temp ≠ .next a) : (insert htable temp a key value).links =
    (htable.links.write (.next a) none).write temp (some a) := by
  have linked := links_store htable temp (some a)
  calc
    (insert htable temp a key value).links =
        (htable.store temp (some a)).links.write (.next a) none := by
      simp only [insert, HashTable.setNode, HashTable.links, Links.write]
      congr 1
      funext b
      by_cases same : b = a
      · subst same
        simp
      · simp [same]
    _ = (htable.links.write (.next a) none).write temp (some a) := by
      rw [linked, write_comm apart]

theorem nodepool_insert (apart : temp ≠ .next a) :
    (insert htable temp a key value).nodepool = (htable.nodes a).next := by
  change (htable.store temp (some a)).links.read (.next a) = htable.links.read (.next a)
  rw [links_store]
  exact read_write_apart apart.symm

theorem node_insert : ((insert htable temp a key value).nodes a).key =
      copyTo (htable.nodes a).key 0 key ∧
    ((insert htable temp a key value).nodes a).value = BitVec.ofInt 32 value := by
  have stored := (node_store htable temp (some a) a).1
  simp only [insert, HashTable.setNode, Function.update_self, stored, and_self]

theorem node_insert_other {b : Nat} (apart : b ≠ a) :
    ((insert htable temp a key value).nodes b).key = (htable.nodes b).key ∧
      ((insert htable temp a key value).nodes b).value = (htable.nodes b).value := by
  simp only [insert, HashTable.setNode, Function.update_of_ne apart]
  exact node_store htable temp (some a) b

end Insert

structure Put (htable : HashTable) (chains : Nat → List Nat) (rest : List Nat) (a : Nat)
    (key : List UInt8) (value : Int) (htable' : HashTable) : Prop where
  rep : Represents htable' (Function.update chains (index htable.tableSize key)
    (chains (index htable.tableSize key) ++ [a])) rest
  tableSize : htable'.tableSize = htable.tableSize
  key : (htable'.nodes a).key = copyTo (htable.nodes a).key 0 key
  value : (htable'.nodes a).value = BitVec.ofInt 32 value
  others : ∀ b, b ≠ a → (htable'.nodes b).key = (htable.nodes b).key ∧
    (htable'.nodes b).value = (htable.nodes b).value

theorem hput_ok {a : Nat} {rest : List Nat} (rep : Represents htable chains (a :: rest))
    (key : List UInt8) (value : Int) : ∃ htable', hput htable key value = some (0, htable') ∧
      Put htable chains rest a key value htable' := by
  have inside := index_lt rep.positive key
  have hash := hgetHash_eq rep.positive rep.small key
  let i := index htable.tableSize key
  let temp : Cell Nat Nat := lastCell (.head i) (chains i)
  have apart : temp ≠ .next a := temp_apart rep inside
  have walked : walk htable (fun _ => false) (hgetHash htable key) = some temp := by
    rw [hash]
    have whole : Chain htable.links.next (htable.links.read (.head i)) (chains i ++ []) := by
      rw [List.append_nil]
      exact rep.chain _ inside
    exact seek_chain whole (fun _ _ => rfl) (fun a none => nomatch none) (rep.short inside)
  have done : hput htable key value = some (0, insert htable temp a key value) := by
    have room : ¬ htable.availableNodeCount < 1 := by
      rw [rep.count, List.length_cons]
      omega
    have minus : ¬ hgetHash htable key = -1 := by
      rw [hash]
      omega
    simp only [hput, if_neg room, if_neg minus, walked, rep.free.1, Option.bind_eq_bind,
      Option.bind_some]
    rfl
  obtain ⟨size, count⟩ := size_store htable temp (some a)
  refine ⟨_, done, ⟨?_, ?_, ?_, ?_, ?_, ?_⟩, size, node_insert.1, node_insert.2,
    fun b => node_insert_other⟩
  · intro j other
    change j < (htable.store temp (some a)).tableSize at other
    rw [size] at other
    change Chain _ ((insert htable temp a key value).links.head j) _
    rw [links_insert apart]
    by_cases same : j = i
    · subst same
      rw [Function.update_self]
      exact put_chain rep inside
    · rw [Function.update_of_ne same]
      exact put_other rep inside other same
  · rw [links_insert apart, nodepool_insert apart]
    exact put_pool rep inside
  · change ((List.range (htable.store temp (some a)).tableSize).flatMap _ ++ rest).Perm
      (List.range (htable.store temp (some a)).tableSize)
    have grown := @flatMap_update chains i _ _ [a] List.nodup_range (List.mem_range.mpr inside)
      (List.Perm.refl _)
    have whole := grown.append_right rest
    rw [List.append_assoc] at whole
    rw [size]
    exact whole.trans rep.nodes
  · change (htable.store temp (some a)).availableNodeCount - 1 = rest.length
    rw [count, rep.count, List.length_cons, Nat.add_sub_cancel]
  · exact size.symm ▸ rep.positive
  · exact size.symm ▸ rep.small

def holder (htable : HashTable) (chains : Nat → List Nat) (key : List UInt8) : Option Nat :=
  (chains (index htable.tableSize key)).find? fun a => sameKey (htable.nodes a).key key

theorem hget_ok (rep : Represents htable chains pool) (key : List UInt8) :
    hget htable key = some ((holder htable chains key).elim (-2) fun a =>
      (htable.nodes a).value.toInt) := by
  have inside := index_lt rep.positive key
  have hash := hgetHash_eq rep.positive rep.small key
  have minus : ¬ hgetHash htable key = -1 := by
    rw [hash]
    omega
  have chain : Chain htable.links.next
      (htable.links.read (.head (index htable.tableSize key))) _ := rep.chain _ inside
  obtain ⟨temp, walked, read⟩ := @seek_find _ _ _ _
    (fun a => sameKey (htable.nodes a).key key) _ _ chain (rep.short inside)
  have found : walk htable (fun a => sameKey (htable.nodes a).key key) (hgetHash htable key) =
      some temp := by
    rw [hash]
    exact walked
  simp only [hget, if_neg minus, found, Option.bind_eq_bind, Option.bind_some, read, holder]
  cases List.find? _ _ with
  | none => rfl
  | some a => rfl

end Chains

section Keys

variable {key text : List UInt8}

theorem clean_byte (text : List UInt8) (i : Nat) :
    copyTo (fun _ => 0) 0 text i = (text[i]?).getD 0 := if_pos (Nat.zero_le i)

theorem slice_clean (text : List UInt8) {count i : Nat} (low : i < count) :
    (slice (copyTo (fun _ => 0) 0 text) 0 count)[i]? = some ((text[i]?).getD 0) := by
  simp [slice, clean_byte, low]

theorem sameKey_self (text : List UInt8) : sameKey (copyTo (fun _ => 0) 0 text) text = true := by
  rw [sameKey, decide_eq_true_eq]
  apply List.ext_getElem?
  intro i
  rcases Nat.lt_trichotomy i text.length with low | rfl | high
  · rw [slice_clean text (by omega), List.getElem?_append_left low, List.getElem?_eq_getElem low]
    rfl
  · rw [slice_clean text (by omega), List.getElem?_append_right (Nat.le_refl _),
      List.getElem?_eq_none (Nat.le_refl _)]
    simp
  · rw [List.getElem?_eq_none (by rw [length_slice]; omega),
      List.getElem?_eq_none (by rw [List.length_append, List.length_singleton]; omega)]

theorem sameKey_iff (noNul : 0 ∉ key) (clean : 0 ∉ text) :
    sameKey (copyTo (fun _ => 0) 0 text) key = true ↔ text = key := by
  constructor
  · intro found
    rw [sameKey, decide_eq_true_eq] at found
    have byte (i : Nat) (low : i < key.length + 1) :
        some ((text[i]?).getD 0) = (key ++ [0])[i]? := by
      rw [← found]
      exact (slice_clean text low).symm
    have inside (i : Nat) (low : i < key.length) : text[i]? = key[i]? := by
      have value := byte i (by omega)
      rw [List.getElem?_append_left low] at value
      cases known : text[i]? with
      | none =>
          rw [known] at value
          exact absurd (List.mem_of_getElem? value.symm) noNul
      | some c =>
          rw [known] at value
          exact value
    have stop : text[key.length]? = none := by
      have last := byte key.length (by omega)
      rw [List.getElem?_append_right (Nat.le_refl _), Nat.sub_self] at last
      cases known : text[key.length]? with
      | none => rfl
      | some c =>
          rw [known] at last
          have zero : c = 0 := Option.some.inj last
          exact absurd (zero ▸ List.mem_of_getElem? known) clean
    apply List.ext_getElem?
    intro i
    rcases Nat.lt_or_ge i key.length with low | high
    · exact inside i low
    · rw [List.getElem?_eq_none high, List.getElem?_eq_none]
      exact (List.getElem?_eq_none_iff.mp stop).trans high
  · intro same
    rw [same]
    exact sameKey_self key

end Keys

section Creation

structure Allocated (size turns : Nat) (s : HashTable × Option Nat) : Prop where
  next : ∀ a, (s.1.nodes a).next = if a + 1 < turns then some (a + 1) else none
  key : ∀ a, (s.1.nodes a).key = fun _ => 0
  table : ∀ i, s.1.table i = none
  nodepool : s.1.nodepool = if turns = 0 then none else some 0
  last : s.2 = if turns = 0 then none else some (turns - 1)
  tableSize : s.1.tableSize = size
  count : s.1.availableNodeCount = size

theorem allocated_succ {size turns : Nat} {s : HashTable × Option Nat}
    (allocated : Allocated size turns s) : Allocated size (turns + 1) (allocate s turns) := by
  obtain ⟨htable, temp⟩ := s
  obtain ⟨next, key, table, nodepool, last, tableSize, count⟩ := allocated
  dsimp only at next key table nodepool last tableSize count
  cases turns with
  | zero =>
      rw [if_pos rfl] at last
      subst last
      refine ⟨fun a => ?_, fun a => ?_, table, rfl, rfl, tableSize, count⟩
      · by_cases same : a = 0
        · subst same
          rfl
        · simpa [allocate, HashTable.setNode, same] using next a
      · by_cases same : a = 0
        · subst same
          rfl
        · simpa [allocate, HashTable.setNode, same] using key a
  | succ k =>
      rw [if_neg (Nat.succ_ne_zero k)] at last nodepool
      subst last
      refine ⟨fun a => ?_, fun a => ?_, table, nodepool, rfl, tableSize, count⟩
      · have known := next a
        simp only [allocate, HashTable.store, HashTable.setNode, Nat.add_sub_cancel]
        by_cases same : a = k
        · subst same
          simp
        · rw [Function.update_of_ne same]
          by_cases new : a = k + 1
          · subst new
            simp [DataNode.blank]
          · rw [Function.update_of_ne new, known]
            by_cases low : a + 1 < k + 1
            · rw [if_pos low, if_pos (by omega)]
            · rw [if_neg low, if_neg (by omega)]
      · simp only [allocate, HashTable.store, HashTable.setNode, Nat.add_sub_cancel]
        by_cases same : a = k
        · subst same
          simpa using key a
        · rw [Function.update_of_ne same]
          by_cases new : a = k + 1
          · subst new
            simp [DataNode.blank]
          · rw [Function.update_of_ne new, key a]

theorem allocated_all (size turns : Nat) : Allocated size turns ((List.range turns).foldl allocate
    (⟨fun _ => .blank, fun _ => none, none, size, size⟩, none)) := by
  induction turns with
  | zero => exact ⟨fun _ => rfl, fun _ => rfl, fun _ => rfl, rfl, rfl, rfl, rfl⟩
  | succ turns ih =>
      rw [List.range_succ, List.foldl_append]
      exact allocated_succ ih

theorem chain_range {next : Nat → Option Nat} {stop : Nat}
    (links : ∀ a, next a = if a + 1 < stop then some (a + 1) else none) (count start : Nat)
    (ends : start + count = stop) :
    Chain next (if count = 0 then none else some start) (List.range' start count) := by
  induction count generalizing start with
  | zero => exact rfl
  | succ count ih =>
      rw [List.range'_succ]
      refine ⟨rfl, ?_⟩
      have rest := ih (start + 1) (by omega)
      rw [links start]
      by_cases more : count = 0
      · rw [if_pos more] at rest
        rwa [if_neg (by omega)]
      · rw [if_neg more] at rest
        rwa [if_pos (by omega)]

theorem represents_create {size : Nat} (positive : 0 < size) (small : size < 2 ^ 31) :
    Represents (hcreateTable size) (fun _ => []) (List.range size) := by
  have allocated := allocated_all size size
  have count : (hcreateTable size).tableSize = size := allocated.tableSize
  have chain := chain_range allocated.next size 0 (Nat.zero_add size)
  rw [if_neg positive.ne'] at chain
  refine ⟨fun i _ => allocated.table i, ?_, ?_, ?_, ?_, ?_⟩
  · have head : (hcreateTable size).nodepool = some 0 := by
      have known := allocated.nodepool
      rwa [if_neg positive.ne'] at known
    rw [head, List.range_eq_range']
    exact chain
  · have none :
        (List.range (hcreateTable size).tableSize).flatMap (fun _ => ([] : List Nat)) = [] :=
      List.flatMap_eq_nil_iff.mpr fun _ _ => rfl
    rw [none, count, List.nil_append]
  · rw [List.length_range]
    exact allocated.count
  · rwa [count]
  · rwa [count]

end Creation

section Contents

variable {htable : HashTable} {chains : Nat → List Nat} {pool : List Nat}
  {puts : List (Key × Value)}

def Holds (htable : HashTable) (a : Nat) (e : Key × Value) : Prop :=
  (htable.nodes a).key = copyTo (fun _ => 0) 0 e.1.text ∧
    (htable.nodes a).value = BitVec.ofInt 32 (e.2 : Nat)

def Listed (htable : HashTable) (chains : Nat → List Nat) (puts : List (Key × Value)) : Prop :=
  ∀ i < htable.tableSize, List.Forall₂ (Holds htable) (chains i)
    (puts.filter fun e => index htable.tableSize e.1.text = i)

structure Contains (htable : HashTable) (chains : Nat → List Nat) (pool : List Nat)
    (puts : List (Key × Value)) : Prop where
  entries : ∀ i < htable.tableSize, List.Forall₂ (Holds htable) (chains i)
    (puts.filter fun e => index htable.tableSize e.1.text = i)
  clean : ∀ a ∈ pool, (htable.nodes a).key = fun _ => 0

theorem same_key {a : Nat} {e : Key × Value} (holds : Holds htable a e) (k : Key) :
    sameKey (htable.nodes a).key k.text = decide (e.1 = k) := by
  rw [holds.1, Bool.eq_iff_iff, sameKey_iff k.noNul e.1.noNul, decide_eq_true_eq]
  exact ⟨Key.ext, congrArg Key.text⟩

def first (puts : List (Key × Value)) (k : Key) : Int :=
  (puts.find? fun e => e.1 = k).elim (-2) fun e => (e.2 : Nat)

def recent (puts : List (Key × Value)) (k : Key) : Int := first puts.reverse k

theorem find_forall₂ {α β : Type} {R : α → β → Prop} {xs : List α} {ys : List β}
    {p : α → Bool} {q : β → Bool} (related : List.Forall₂ R xs ys)
    (same : ∀ x y, R x y → p x = q y) : Option.Rel R (xs.find? p) (ys.find? q) := by
  induction related with
  | nil => exact .none
  | cons head _ ih =>
      rw [List.find?_cons, List.find?_cons, same _ _ head]
      split
      · exact .some head
      · exact ih

theorem toInt_value (v : Value) : (BitVec.ofInt 32 (v : Nat)).toInt = (v : Nat) := by
  have bound := v.isLt
  rw [BitVec.toInt_ofInt]
  exact Int.bmod_eq_of_le (by omega) (by omega)

theorem holder_listed (positive : 0 < htable.tableSize) (listed : Listed htable chains puts)
    (k : Key) :
    Option.Rel (Holds htable) (holder htable chains k.text) (puts.find? fun e => e.1 = k) := by
  have inside := index_lt positive k.text
  have found := find_forall₂ (listed _ inside) fun a e holds => same_key holds k
  have chosen : (puts.filter fun e => index htable.tableSize e.1.text =
      index htable.tableSize k.text).find? (fun e => e.1 = k) = puts.find? fun e => e.1 = k := by
    rw [List.find?_filter]
    congr 1
    funext e
    by_cases same : e.1 = k
    · simp [same]
    · simp [same]
  rwa [chosen] at found

theorem hget_listed (rep : Represents htable chains pool) (listed : Listed htable chains puts)
    (k : Key) : hget htable k.text = some (first puts k) := by
  have found := holder_listed rep.positive listed k
  rw [hget_ok rep, first]
  revert found
  generalize holder htable chains k.text = node
  generalize puts.find? _ = entry
  intro found
  cases found with
  | none => rfl
  | some holds =>
      rw [Option.elim_some, Option.elim_some, holds.2, toInt_value]

theorem hget_first (rep : Represents htable chains pool)
    (contains : Contains htable chains pool puts) (k : Key) :
    hget htable k.text = some (first puts k) := hget_listed rep contains.entries k

section Growing

variable {a : Nat} {rest : List Nat} {k : Key} {v : Value} {htable' : HashTable}
  (rep : Represents htable chains (a :: rest)) (put : Put htable chains rest a k.text (v : Nat) htable')

include rep put

theorem listed_put (listed : Listed htable chains puts) (holds : Holds htable' a (k, v)) :
    Listed htable' (Function.update chains (index htable.tableSize k.text)
      (chains (index htable.tableSize k.text) ++ [a])) (puts ++ [(k, v)]) := by
  have kept (i : Nat) (low : i < htable.tableSize) : List.Forall₂ (Holds htable') (chains i)
      (puts.filter fun e => index htable.tableSize e.1.text = i) := by
    have apart (b : Nat) (member : b ∈ chains i) : b ≠ a := fun same =>
      rep.apart_pool low member (same ▸ List.mem_cons_self)
    have related := (List.forall₂_and_left (chains i) _).mpr ⟨apart, listed i low⟩
    refine related.imp fun b e holds => ?_
    obtain ⟨key, value⟩ := put.others b holds.1
    exact ⟨key.trans holds.2.1, value.trans holds.2.2⟩
  intro i low
  rw [put.tableSize] at low ⊢
  rw [List.filter_append]
  by_cases same : i = index htable.tableSize k.text
  · subst same
    have only : [(k, v)].filter (fun e => index htable.tableSize e.1.text =
        index htable.tableSize k.text) = [(k, v)] := by simp
    rw [Function.update_self, only]
    exact List.rel_append (kept _ low) (.cons holds .nil)
  · rw [Function.update_of_ne same,
      List.filter_cons_of_neg (by simpa using fun equal => same equal.symm), List.filter_nil,
      List.append_nil]
    exact kept i low

theorem pool_put {b : Nat} (member : b ∈ rest) : (htable'.nodes b).key = (htable.nodes b).key := by
  have nodup := (List.nodup_append.mp rep.nodup).2.1
  have apart : b ≠ a := fun same => (List.nodup_cons.mp nodup).1 (same ▸ member)
  exact (put.others b apart).1

theorem contains_put (contains : Contains htable chains (a :: rest) puts) :
    Contains htable' (Function.update chains (index htable.tableSize k.text)
      (chains (index htable.tableSize k.text) ++ [a])) rest (puts ++ [(k, v)]) := by
  have holds : Holds htable' a (k, v) := by
    refine ⟨?_, put.value⟩
    rw [put.key, contains.clean a List.mem_cons_self]
  refine ⟨listed_put rep put contains.entries holds, fun b member => ?_⟩
  rw [pool_put rep put member]
  exact contains.clean b (List.mem_cons_of_mem a member)

end Growing

end Contents

inductive Op where
  | put (k : Key) (v : Value)
  | get (k : Key)

def step (htable : HashTable) : Op → Option HashTable
  | .put k v => (hput htable k.text (v : Nat)).map Prod.snd
  | .get k => (hget htable k.text).map fun _ => htable

def stored (htable : HashTable) : Op → List (Key × Value)
  | .put k v => if (hput htable k.text (v : Nat)).map Prod.fst = some 0 then [(k, v)] else []
  | .get _ => []

def putsOf (ops : List Op) : List (Key × Value) := ops.filterMap fun op =>
  match op with
  | .put k v => some (k, v)
  | .get _ => none

section Runs

variable {htable : HashTable} {size : Nat} {puts : List (Key × Value)}

def Filled (size : Nat) (htable : HashTable) (puts : List (Key × Value)) : Prop :=
  ∃ chains pool, Represents htable chains pool ∧ Contains htable chains pool puts ∧
    puts.length + pool.length = size

theorem filled_create (positive : 0 < size) (small : size < 2 ^ 31) :
    Filled size (hcreateTable size) [] := by
  refine ⟨_, _, represents_create positive small, ⟨fun _ _ => .nil, fun a _ => ?_⟩, by simp⟩
  exact (allocated_all size size).key a

theorem filled_put (filled : Filled size htable puts) (k : Key) (v : Value) :
    ∃ htable', step htable (.put k v) = some htable' ∧
      stored htable (.put k v) = [(k, v)].take (size - puts.length) ∧
      Filled size htable' (puts ++ stored htable (.put k v)) := by
  obtain ⟨chains, pool, rep, contains, total⟩ := filled
  cases pool with
  | nil =>
      have full := hput_full rep k.text (v : Nat)
      have none : stored htable (.put k v) = [] := by
        rw [stored, full]
        rfl
      refine ⟨htable, by rw [step, full]; rfl, ?_, ?_⟩
      · rw [none, ← total, List.length_nil, Nat.add_zero, Nat.sub_self]
        rfl
      · rw [none, List.append_nil]
        exact ⟨chains, [], rep, contains, total⟩
  | cons a rest =>
      obtain ⟨htable', done, put⟩ := hput_ok rep k.text (v : Nat)
      have one : stored htable (.put k v) = [(k, v)] := by
        rw [stored, done]
        rfl
      rw [List.length_cons] at total
      refine ⟨htable', by rw [step, done]; rfl, ?_, ?_⟩
      · rw [one, List.take_of_length_le (by simp; omega)]
      · rw [one]
        refine ⟨_, rest, put.rep, contains_put rep put contains, ?_⟩
        rw [List.length_append, List.length_singleton]
        omega

theorem filled_get (filled : Filled size htable puts) (k : Key) :
    hget htable k.text = some (first puts k) := by
  obtain ⟨chains, pool, rep, contains, -⟩ := filled
  exact hget_first rep contains k

theorem run_filled (ops : List Op) (filled : Filled size htable puts) :
    ∃ htable', run step htable ops = some htable' ∧
      outputs step stored htable ops = (putsOf ops).take (size - puts.length) ∧
      Filled size htable' (puts ++ outputs step stored htable ops) := by
  induction ops generalizing htable puts with
  | nil => exact ⟨htable, rfl, by simp [outputs, putsOf], by simpa [outputs] using filled⟩
  | cons op rest ih =>
      cases op with
      | put k v =>
          obtain ⟨mid, moved, taken, grown⟩ := filled_put filled k v
          obtain ⟨last, done, later, whole⟩ := ih grown
          refine ⟨last, run_cons.mpr ⟨mid, moved, done⟩, ?_, ?_⟩
          · have left : size - (puts ++ [(k, v)].take (size - puts.length)).length =
                size - puts.length - 1 := by
              rw [List.length_append, List.length_take, List.length_singleton]
              omega
            rw [outputs_cons moved, later, taken, left]
            exact List.take_append.symm
          · rw [outputs_cons moved, ← List.append_assoc]
            exact whole
      | get k =>
          have moved : step htable (.get k) = some htable := by
            rw [step, filled_get filled k]
            rfl
          obtain ⟨last, done, later, whole⟩ := ih filled
          refine ⟨last, run_cons.mpr ⟨htable, moved, done⟩, ?_, ?_⟩
          · rw [outputs_cons moved, later]
            rfl
          · rw [outputs_cons moved]
            exact whole

end Runs

section Maps

variable {size : Nat} {puts more : List (Key × Value)} {ops : List Op}

theorem first_append {e : Key × Value} (member : e ∈ puts) (more : List (Key × Value)) :
    first (puts ++ more) e.1 = first puts e.1 := by
  rw [first, first, List.find?_append]
  cases found : puts.find? fun f => f.1 = e.1 with
  | some f => rfl
  | none =>
      have missed := List.find?_eq_none.mp found e member
      exact absurd (decide_eq_true rfl) missed

theorem first_other {k other : Key} {v : Value} (apart : other ≠ k) :
    first (puts ++ [(k, v)]) other = first puts other := by
  have missed : [(k, v)].find? (fun e => e.1 = other) = none := by simp [apart.symm]
  rw [first, first, List.find?_append, missed, Option.or_none]

theorem recent_last (e : Key × Value) : recent (puts ++ [e]) e.1 = (e.2 : Nat) := by
  have found : (e :: puts.reverse).find? (fun f => f.1 = e.1) = some e :=
    List.find?_cons_of_pos (by simp)
  rw [recent, first, List.reverse_append, List.reverse_singleton, List.singleton_append, found]
  rfl

def Unchanging (puts : List (Key × Value)) : Prop :=
  ∀ e ∈ puts, ∀ e' ∈ puts, e.1 = e'.1 → e.2 = e'.2

/-- Without a second value the first entry for a key tells the same as the last one. -/
theorem first_eq_recent (same : Unchanging puts) (k : Key) : first puts k = recent puts k := by
  rw [recent, first, first]
  cases early : puts.find? fun e => e.1 = k with
  | none =>
      have none : puts.reverse.find? (fun e => e.1 = k) = none := by
        rw [List.find?_eq_none] at early ⊢
        exact fun e member => early e (List.mem_reverse.mp member)
      rw [none]
  | some e =>
      have inside := List.mem_of_find?_eq_some early
      have key : e.1 = k := by simpa using List.find?_some early
      cases late : puts.reverse.find? fun e => e.1 = k with
      | none =>
          have missed := List.find?_eq_none.mp late e (List.mem_reverse.mpr inside)
          exact absurd (decide_eq_true key) missed
      | some f =>
          have present := List.mem_reverse.mp (List.mem_of_find?_eq_some late)
          have key' : f.1 = k := by simpa using List.find?_some late
          rw [Option.elim_some, Option.elim_some, same e inside f present (key.trans key'.symm)]

/-- A table that behaves like a map as long as a sequence of calls goes on: `hget` tells the
value of the last successful `hput`, and `hput` leaves the other keys alone. -/
structure LikeMap (size : Nat) (ops : List Op) : Prop where
  recent : ∀ before, before <+: ops → ∃ htable, run step (hcreateTable size) before = some htable ∧
    ∀ k : Key, hget htable k.text =
      some (recent (outputs step stored (hcreateTable size) before) k)
  others : ∀ before k v, before ++ [.put k v] <+: ops → ∃ htable htable',
    run step (hcreateTable size) before = some htable ∧ step htable (.put k v) = some htable' ∧
      ∀ other : Key, other ≠ k → hget htable' other.text = hget htable other.text

theorem putsOf_begin {before : List Op} (part : before <+: ops) : putsOf before <+: putsOf ops :=
  part.filterMap _

theorem run_create (positive : 0 < size) (small : size < 2 ^ 31) (ops : List Op) :
    ∃ htable, run step (hcreateTable size) ops = some htable ∧
      outputs step stored (hcreateTable size) ops = (putsOf ops).take size ∧
      Filled size htable ((putsOf ops).take size) := by
  obtain ⟨htable, done, taken, filled⟩ := run_filled ops (filled_create positive small)
  rw [List.length_nil, Nat.sub_zero] at taken
  rw [List.nil_append, taken] at filled
  exact ⟨htable, done, taken, filled⟩

theorem unchanging_of_likeMap (positive : 0 < size) (small : size < 2 ^ 31)
    (like : LikeMap size ops) : Unchanging ((putsOf ops).take size) := by
  have each (e : Key × Value) (member : e ∈ (putsOf ops).take size) :
      ((e.2 : Nat) : Int) = first ((putsOf ops).take size) e.1 := by
    obtain ⟨early, late, split⟩ := List.append_of_mem member
    have part : early ++ [e] <+: (putsOf ops).take size := ⟨late, by rw [split]; simp⟩
    have fits : (early ++ [e]).length ≤ size :=
      part.length_le.trans (List.length_take_le _ _)
    obtain ⟨before, inside, puts⟩ :=
      List.prefix_filterMap_iff.mp (part.trans (List.take_prefix size (putsOf ops)))
    have whole : (putsOf before).take size = early ++ [e] := by
      rw [putsOf, ← puts]
      exact List.take_of_length_le fits
    obtain ⟨htable, done, taken, filled⟩ := run_create positive small before
    obtain ⟨htable', done', found⟩ := like.recent before inside
    obtain rfl := Option.some.inj (done.symm.trans done')
    have told := Option.some.inj ((filled_get filled e.1).symm.trans (found e.1))
    rw [taken, whole, recent_last] at told
    have present : e ∈ early ++ [e] := List.mem_append_right early List.mem_cons_self
    obtain ⟨rest, again⟩ := part
    rw [← again, first_append present, told]
  intro e member e' member' same
  have values := (each e member).trans (same ▸ (each e' member').symm)
  exact Fin.ext (Int.ofNat_inj.mp values)

theorem likeMap_of_unchanging (positive : 0 < size) (small : size < 2 ^ 31)
    (same : Unchanging ((putsOf ops).take size)) : LikeMap size ops := by
  constructor
  · intro before part
    obtain ⟨htable, done, taken, filled⟩ := run_create positive small before
    refine ⟨htable, done, fun k => ?_⟩
    have inside := ((putsOf_begin part).take size).subset
    have kept : Unchanging ((putsOf before).take size) := fun e member e' member' =>
      same e (inside member) e' (inside member')
    rw [filled_get filled, taken, first_eq_recent kept]
  · intro before k v part
    obtain ⟨htable, done, taken, filled⟩ := run_create positive small before
    obtain ⟨htable', moved, put, grown⟩ := filled_put filled k v
    refine ⟨htable, htable', done, moved, fun other apart => ?_⟩
    rw [filled_get grown, filled_get filled, put]
    cases size - ((putsOf before).take size).length with
    | zero => rw [List.take_zero, List.append_nil]
    | succ room =>
        have one : [(k, v)].take (room + 1) = [(k, v)] := by simp
        rw [one, first_other apart]

/-- The table keeps the first value of a key: it behaves like a map exactly when no key is put,
before the nodes run out, with two values. -/
theorem likeMap_iff (positive : 0 < size) (small : size < 2 ^ 31) (ops : List Op) :
    LikeMap size ops ↔ Unchanging ((putsOf ops).take size) :=
  ⟨unchanging_of_likeMap positive small, likeMap_of_unchanging positive small⟩

def localhost : Key := ⟨[50, 49, 51, 48, 55, 48, 54, 52, 51, 51], by decide, by decide⟩

theorem announced_once : LikeMap 100 [.put localhost 180, .get localhost] := by
  have unchanging : Unchanging ((putsOf [.put localhost 180, .get localhost]).take 100) := by
    unfold Unchanging
    decide
  exact (likeMap_iff (by decide) (by decide) _).mpr unchanging

/-- It is announced again, and the receiver goes on with the old one. -/
theorem announced_again : ¬ LikeMap 100 [.put localhost 180, .put localhost 400] := by
  intro like
  have same := unchanging_of_likeMap (by decide) (by decide) like
  have values := same (localhost, 180) (by decide) (localhost, 400) (by decide) rfl
  exact absurd values (by decide)

end Maps

end Hash

end FileSharing
