import FileSharing.Library.Slots

/-! The shared blocks of `partition.c`: a bitmap of signed characters and one record for
each bit. -/

namespace FileSharing

open Library

def messageSize : Nat := 1024 * 128

def totalPartitions : Nat := 80

/-- A block; a partition that was never written holds nothing. -/
structure Block (α : Type) where
  bmap : Nat → BitVec 8
  partitions : Nat → Option α

namespace Block

variable {α : Type}

def empty : Block α := ⟨fun _ => 0, fun _ => none⟩

/-- `(bmap[i] >> j) & 1`, after the promotion to `int`. -/
def readBit (byte : BitVec 8) (j : Nat) : Bool :=
  (byte.signExtend 32).sshiftRight j &&& 1#32 = 1#32

def getSubblock (block : Block α) (state : Bool) (type : Nat) : Option Nat :=
  let bmapSize := totalPartitions / 8
  let start := if type = 2 then bmapSize / 2 else 0
  let stop := if type = 1 then bmapSize / 2 else bmapSize
  (List.range' start (stop - start)).findSome? fun i =>
    (List.range 8).findSome? fun j =>
      if state = readBit (block.bmap i) j then some (i * 8 + j) else none

def toggleBit (idx : Nat) (block : Block α) : Block α :=
  { block with bmap := fun i => if i = idx / 8
      then ((block.bmap i).signExtend 32 ^^^ 1#32 <<< (idx % 8)).truncate 8 else block.bmap i }

/-- `memset` over the bytes of a region of the bitmap. -/
def unsetAllBits (block : Block α) (type : Nat) : Block α :=
  { block with bmap := fun i =>
      if type = 1 ∧ i < 5 ∨ type = 2 ∧ 5 ≤ i ∧ i < 10 ∨ type = 3 ∧ i < 10 then 0
      else block.bmap i }

def put (block : Block α) (idx : Nat) (a : α) : Block α :=
  { block with partitions := Function.update block.partitions idx (some a) }

def bit (block : Block α) (k : Nat) : Bool := readBit (block.bmap (k / 8)) (k % 8)

/-- The partitions that a region type names. -/
def region (type : Nat) : List Nat :=
  if type = 1 then List.range' 0 40 else if type = 2 then List.range' 40 40 else List.range' 0 80

theorem region_sorted (type : Nat) : (region type).Pairwise (· < ·) := by
  unfold region
  split
  · exact List.pairwise_lt_range'
  · split
    · exact List.pairwise_lt_range'
    · exact List.pairwise_lt_range'

theorem region_nodup (type : Nat) : (region type).Nodup := by
  unfold region
  split
  · exact List.nodup_range'
  · split
    · exact List.nodup_range'
    · exact List.nodup_range'

theorem mem_lower {k : Nat} : k ∈ region 1 ↔ k < 40 := by
  simp [region, List.mem_range'_1]

theorem mem_upper {k : Nat} : k ∈ region 2 ↔ 40 ≤ k ∧ k < 80 := by
  simp [region, List.mem_range'_1]

theorem mem_all {k : Nat} : k ∈ region 3 ↔ k < 80 := by
  simp [region, List.mem_range'_1]

theorem findSome_nested (starts inner : List Nat) (f : Nat → Nat → Option Nat) :
    (starts.findSome? fun i => inner.findSome? (f i)) =
      (starts.flatMap fun i => inner.map fun j => (i, j)).findSome? fun p => f p.1 p.2 := by
  induction starts with
  | nil => rfl
  | cons i rest ih =>
      rw [List.flatMap_cons, List.findSome?_append, ← ih, List.findSome?_cons, List.findSome?_map]
      change _ = (inner.findSome? (f i)).or _
      cases inner.findSome? (f i) <;> rfl

theorem getSubblock_eq (block : Block α) (state : Bool) (type : Nat) :
    block.getSubblock state type = (region type).find? fun k => state = block.bit k := by
  have scanned : ∀ scan : List (Nat × Nat),
      (∀ p ∈ scan, p.2 < 8) → (scan.findSome? fun p =>
        if state = readBit (block.bmap p.1) p.2 then some (p.1 * 8 + p.2) else none) =
      (scan.map fun p => p.1 * 8 + p.2).find? fun k => state = block.bit k := by
    intro scan small
    induction scan with
    | nil => rfl
    | cons p rest ih =>
        have bound := small p List.mem_cons_self
        have high : (p.1 * 8 + p.2) / 8 = p.1 := by omega
        have low : (p.1 * 8 + p.2) % 8 = p.2 := by omega
        rw [List.findSome?_cons, List.map_cons, List.find?_cons,
          ih fun q member => small q (List.mem_cons_of_mem p member)]
        simp only [bit, high, low]
        by_cases same : state = readBit (block.bmap p.1) p.2
        · simp [same]
        · simp [same]
  have bound (starts : List Nat) :
      ∀ p ∈ starts.flatMap fun i => (List.range 8).map fun j => (i, j), p.2 < 8 := by
    intro p member
    obtain ⟨i, -, inside⟩ := List.mem_flatMap.mp member
    obtain ⟨j, range, rfl⟩ := List.mem_map.mp inside
    exact List.mem_range.mp range
  unfold getSubblock
  simp only
  rw [findSome_nested, scanned _ (bound _)]
  congr 1
  unfold region totalPartitions
  by_cases lower : type = 1
  · subst lower; decide
  · by_cases upper : type = 2
    · subst upper; decide
    · simp only [lower, upper, if_false]; decide

theorem getSubblock_some {block : Block α} {state : Bool} {type idx : Nat}
    (found : block.getSubblock state type = some idx) :
    idx ∈ region type ∧ block.bit idx = state := by
  rw [getSubblock_eq] at found
  exact ⟨List.mem_of_find?_eq_some found, by simpa [eq_comm] using List.find?_some found⟩

theorem getSubblock_none {block : Block α} {state : Bool} {type : Nat} :
    block.getSubblock state type = none ↔ ∀ k ∈ region type, block.bit k = !state := by
  rw [getSubblock_eq, List.find?_eq_none]
  refine forall₂_congr fun k _ => ?_
  cases state <;> cases block.bit k <;> simp

theorem and_one_eq (w : BitVec 32) : (w &&& 1#32 = 1#32) ↔ w.getLsbD 0 = true := by
  constructor
  · intro same
    have low := congrArg (fun v => BitVec.getLsbD v 0) same
    simpa using low
  · intro low
    ext i bound
    rw [BitVec.getElem_and, BitVec.getElem_one]
    by_cases zero : i = 0
    · subst zero
      simpa [← BitVec.getLsbD_eq_getElem] using low
    · simp [zero]

theorem readBit_eq (byte : BitVec 8) {j : Nat} (hj : j < 8) : readBit byte j = byte.getLsbD j := by
  have wide : j < 32 := by omega
  unfold readBit
  rw [Bool.eq_iff_iff, decide_eq_true_iff, and_one_eq, BitVec.getLsbD_sshiftRight,
    BitVec.getLsbD_signExtend]
  simp [wide, hj]

theorem readBit_toggle (byte : BitVec 8) {j m : Nat} (hj : j < 8) (hm : m < 8) :
    readBit ((byte.signExtend 32 ^^^ 1#32 <<< m).truncate 8) j =
      if j = m then !readBit byte j else readBit byte j := by
  have wide : j < 32 := by omega
  have low : (byte.signExtend 32).getLsbD j = byte.getLsbD j := by
    rw [BitVec.getLsbD_signExtend]
    simp [wide, hj]
  have mask : (1#32 <<< m).getLsbD j = decide (j = m) := by
    rw [BitVec.getLsbD_shiftLeft, BitVec.getLsbD_one]
    simp only [wide, decide_true, Bool.true_and]
    by_cases same : j = m
    · simp [same]
    · by_cases below : j < m
      · simp [same, below]
      · simp [same, below]; omega
  rw [readBit_eq _ hj, readBit_eq _ hj, BitVec.truncate_eq_setWidth, BitVec.getLsbD_setWidth,
    BitVec.getLsbD_xor, low, mask]
  by_cases same : j = m
  · simp [same, hm]
  · simp [same, hj]

theorem bit_toggle (block : Block α) (idx : Nat) :
    (block.toggleBit idx).bit = Function.update block.bit idx (!block.bit idx) := by
  funext k
  have hk : k % 8 < 8 := Nat.mod_lt _ (by decide)
  have hi : idx % 8 < 8 := Nat.mod_lt _ (by decide)
  unfold bit toggleBit
  simp only
  by_cases same : k = idx
  · subst same
    rw [if_pos rfl, readBit_toggle _ hk hk, if_pos rfl, Function.update_self]
  · rw [Function.update_of_ne same]
    by_cases byte : k / 8 = idx / 8
    · have other : k % 8 ≠ idx % 8 := by omega
      rw [if_pos byte, readBit_toggle _ hk hi, if_neg other]
    · rw [if_neg byte]

@[simp] theorem partitions_toggle (block : Block α) (idx : Nat) :
    (block.toggleBit idx).partitions = block.partitions := rfl

@[simp] theorem bit_put (block : Block α) (idx : Nat) (a : α) : (block.put idx a).bit = block.bit :=
  rfl

@[simp] theorem partitions_put (block : Block α) (idx : Nat) (a : α) :
    (block.put idx a).partitions = Function.update block.partitions idx (some a) := rfl

def held (block : Block α) (type : Nat) : List α := contents (region type) block.bit block.partitions

def Filled (block : Block α) : Prop := ∀ k, block.bit k = true → ∃ a, block.partitions k = some a

theorem bit_empty (k : Nat) : (empty : Block α).bit k = false := by
  have hk : k % 8 < 8 := Nat.mod_lt _ (by decide)
  unfold bit empty
  simp only
  generalize k % 8 = j at hk
  interval_cases j <;> decide

theorem bit_unset (block : Block α) {type : Nat} (known : type = 1 ∨ type = 2 ∨ type = 3)
    (k : Nat) : (block.unsetAllBits type).bit k = if k ∈ region type then false else block.bit k := by
  have zero : readBit 0 (k % 8) = false := bit_empty (α := α) k
  have inside : (type = 1 ∧ k / 8 < 5 ∨ type = 2 ∧ 5 ≤ k / 8 ∧ k / 8 < 10 ∨
      type = 3 ∧ k / 8 < 10) ↔ k ∈ region type := by
    rcases known with rfl | rfl | rfl
    · rw [mem_lower]
      omega
    · rw [mem_upper]
      omega
    · rw [mem_all]
      omega
  simp only [bit, unsetAllBits]
  by_cases member : k ∈ region type
  · rw [if_pos member, if_pos (inside.mpr member), zero]
  · rw [if_neg member, if_neg (mt inside.mp member)]

theorem held_empty (type : Nat) : (empty : Block α).held type = [] := by
  simp [held, contents, bit_empty]

theorem filled_empty : (empty : Block α).Filled := by
  intro k marked
  rw [bit_empty] at marked
  cases marked

/-- A writer's critical section with a free partition. -/
def write (block : Block α) (idx : Nat) (a : α) : Block α := (block.put idx a).toggleBit idx

section Write

variable {block : Block α} {type idx : Nat} {a : α}

theorem bit_write (free : block.bit idx = false) :
    (block.write idx a).bit = Function.update block.bit idx true := by
  rw [write, bit_toggle, bit_put, free]
  rfl

theorem held_write (found : block.getSubblock false type = some idx) :
    ((block.write idx a).held type).Perm (a :: block.held type) := by
  obtain ⟨member, free⟩ := getSubblock_some found
  rw [held, bit_write free]
  exact contents_fill (region_nodup type) member free block.partitions a

theorem filled_write (filled : block.Filled) (free : block.bit idx = false) :
    (block.write idx a).Filled := by
  intro k marked
  rw [bit_write free] at marked
  by_cases same : k = idx
  · exact ⟨a, by simp [write, same]⟩
  · rw [Function.update_of_ne same] at marked
    obtain ⟨b, holds⟩ := filled k marked
    exact ⟨b, by simpa [write, Function.update_of_ne same] using holds⟩

theorem held_write_outside (free : block.bit idx = false) {other : Nat}
    (outside : idx ∉ region other) : (block.write idx a).held other = block.held other := by
  rw [held, bit_write free]
  have apart (k : Nat) (member : k ∈ region other) : k ≠ idx := fun h => outside (h ▸ member)
  apply contents_congr
  · intro k member
    exact Function.update_of_ne (apart k member) _ _
  · intro k member _
    exact Function.update_of_ne (apart k member) _ _

theorem held_insert (found : block.getSubblock false type = some idx) (a : α) :
    ∃ below above, block.held type = below ++ above ∧
      (block.write idx a).held type = below ++ a :: above ∧
      ∀ b ∈ above, ∃ k ∈ region type, idx < k ∧ block.bit k = true ∧
        block.partitions k = some b := by
  obtain ⟨member, free⟩ := getSubblock_some found
  obtain ⟨before, after, halves⟩ := List.append_of_mem member
  have outside : idx ∉ before ++ after :=
    (List.nodup_cons.mp (List.nodup_middle.mp (halves ▸ region_nodup type))).1
  have around := contents_split outside block.bit block.partitions
  refine ⟨contents before block.bit block.partitions, contents after block.bit block.partitions,
    ?_, ?_, ?_⟩
  · have same := around false (block.partitions idx)
    rw [← free, Function.update_eq_self, Function.update_eq_self] at same
    simpa [held, halves, free] using same
  · rw [held, bit_write free, halves]
    simpa [write] using around true (some a)
  · intro b inside
    obtain ⟨k, later, marked, holds⟩ := mem_contents.mp inside
    have sorted := halves ▸ region_sorted type
    have order := (List.pairwise_cons.mp (List.pairwise_append.mp sorted).2.1).1 k later
    exact ⟨k, halves ▸ List.mem_append_right _ (List.mem_cons_of_mem _ later), order, marked, holds⟩

end Write

section Unset

variable {block : Block α} {type : Nat}

theorem held_unset (known : type = 1 ∨ type = 2 ∨ type = 3) :
    (block.unsetAllBits type).held type = [] := by
  have none : (region type).filter (block.unsetAllBits type).bit = [] := by
    apply List.filter_eq_nil_iff.mpr
    intro k member
    rw [bit_unset block known, if_pos member]
    decide
  rw [held, contents, none, List.filterMap_nil]

theorem held_unset_outside (known : type = 1 ∨ type = 2 ∨ type = 3) {other : Nat}
    (outside : ∀ k ∈ region other, k ∉ region type) :
    (block.unsetAllBits type).held other = block.held other := by
  apply contents_congr
  · intro k member
    rw [bit_unset block known, if_neg (outside k member)]
  · intro k _ _
    rfl

theorem filled_unset (known : type = 1 ∨ type = 2 ∨ type = 3) (filled : block.Filled) :
    (block.unsetAllBits type).Filled := by
  intro k marked
  rw [bit_unset block known] at marked
  split at marked
  · cases marked
  · exact filled k marked

theorem held_halves (block : Block α) : block.held 3 = block.held 1 ++ block.held 2 := by
  have halves : region 3 = region 1 ++ region 2 := by decide
  rw [held, halves, contents_append]
  rfl

end Unset

section Clear

variable {block : Block α} {type idx : Nat} {a : α}

theorem bit_clear (taken : block.bit idx = true) :
    (block.toggleBit idx).bit = Function.update block.bit idx false := by
  rw [bit_toggle, taken]
  rfl

theorem held_clear (found : block.getSubblock true type = some idx)
    (holds : block.partitions idx = some a) :
    (block.held type).Perm (a :: (block.toggleBit idx).held type) := by
  obtain ⟨member, taken⟩ := getSubblock_some found
  rw [held, held, bit_clear taken]
  exact contents_clear (region_nodup type) member taken holds

theorem held_first (found : block.getSubblock true type = some idx) :
    block.held type = (block.partitions idx).toList ++ (block.toggleBit idx).held type := by
  obtain ⟨member, taken⟩ := getSubblock_some found
  rw [getSubblock_eq] at found
  obtain ⟨-, before, after, halves, free⟩ := List.find?_eq_some_iff_append.mp found
  have outside : idx ∉ before ++ after :=
    (List.nodup_cons.mp (List.nodup_middle.mp (halves ▸ region_nodup type))).1
  have nothing : contents before block.bit block.partitions = [] := by
    rw [contents, List.filter_eq_nil_iff.mpr, List.filterMap_nil]
    intro k inside
    have unequal := free k inside
    cases marked : block.bit k with
    | false => decide
    | true => simp [marked] at unequal
  have around := contents_split outside block.bit block.partitions
  rw [held, held, bit_clear taken, halves, partitions_toggle]
  calc
    contents (before ++ idx :: after) block.bit block.partitions =
        (block.partitions idx).toList ++ contents after block.bit block.partitions := by
      have same := around true (block.partitions idx)
      rw [← taken, Function.update_eq_self, Function.update_eq_self] at same
      simpa [taken, nothing] using same
    _ = (block.partitions idx).toList ++ contents (before ++ idx :: after)
          (Function.update block.bit idx false) block.partitions := by
      have same := around false (block.partitions idx)
      rw [Function.update_eq_self] at same
      simp [same, nothing]

theorem filled_clear (filled : block.Filled) (taken : block.bit idx = true) :
    (block.toggleBit idx).Filled := by
  intro k marked
  rw [bit_clear taken] at marked
  by_cases same : k = idx
  · simp [same] at marked
  · rw [Function.update_of_ne same] at marked
    exact filled k marked

theorem held_clear_outside (taken : block.bit idx = true) {other : Nat}
    (outside : idx ∉ region other) : (block.toggleBit idx).held other = block.held other := by
  rw [held, bit_clear taken]
  have apart (k : Nat) (member : k ∈ region other) : k ≠ idx := fun h => outside (h ▸ member)
  apply contents_congr
  · intro k member
    exact Function.update_of_ne (apart k member) _ _
  · intro k _ _
    rfl

end Clear

section Count

variable {block : Block α} {type idx : Nat}

theorem held_length_write (a : α) (found : block.getSubblock false type = some idx) :
    ((block.write idx a).held type).length = (block.held type).length + 1 :=
  (held_write found).length_eq

theorem held_length_clear (filled : block.Filled)
    (found : block.getSubblock true type = some idx) :
    (block.held type).length = ((block.toggleBit idx).held type).length + 1 := by
  obtain ⟨a, holds⟩ := filled idx (getSubblock_some found).2
  exact (held_clear found holds).length_eq

theorem held_of_none (found : block.getSubblock true type = none) : block.held type = [] := by
  rw [held, contents, List.filter_eq_nil_iff.mpr, List.filterMap_nil]
  intro k member
  simp [getSubblock_none.mp found k member]

theorem held_of_full (filled : block.Filled) (full : block.getSubblock false type = none) {k : Nat}
    (member : k ∈ region type) : 0 < (block.held type).length := by
  have taken : block.bit k = true := getSubblock_none.mp full k member
  obtain ⟨a, holds⟩ := filled k taken
  exact List.length_pos_of_mem (mem_contents.mpr ⟨k, member, taken, holds⟩)

theorem lower_not_upper (member : idx ∈ region 1) : idx ∉ region 2 := by
  rw [mem_lower] at member
  rw [mem_upper]
  omega

theorem upper_not_lower (member : idx ∈ region 2) : idx ∉ region 1 :=
  fun lower => lower_not_upper lower member

end Count

end Block

end FileSharing
