import FileSharing.Shared.Bitmap

/-! The bytes of a block stand for the records in its occupied partitions. -/

namespace FileSharing

open Library

namespace Bitmap

variable {α : Type}

/-- Whether a partition holds a record is seen in its bytes alone. -/
def Local (c : Channel) (holds : Memory → Nat → α → Prop) : Prop :=
  ∀ m m' base a, (∀ i, base ≤ i → i < base + c.partition → m' i = m i) → holds m base a →
    holds m' base a

/-- The bits are the same, and each occupied partition holds its record. What is left in a free
one does not matter, and nothing is written behind the block. -/
structure Agrees (c : Channel) (holds : Memory → Nat → α → Prop) (m : Memory) (block : Block α) :
    Prop where
  bits : ∀ k < totalPartitions, bit m k = block.bit k
  records : ∀ k < totalPartitions, block.bit k = true →
    ∃ a, block.partitions k = some a ∧ holds m (c.blkptr k) a
  behind : ∀ i, c.blkptr totalPartitions ≤ i → m i = 0

section Agrees

variable {c : Channel} {holds : Memory → Nat → α → Prop} {m m' : Memory} {block : Block α}
  {state : Bool} {type idx : Nat} {a : α}

theorem Agrees.scan (agrees : Agrees c holds m block) (state : Bool) (type : Nat) :
    getSubblock m state type = (block.getSubblock state type).elim (-1) fun idx => (idx : Int) := by
  rw [getSubblock_view c, Block.getSubblock_eq, Block.getSubblock_eq]
  congr 1
  apply List.find?_congr
  intro k member
  have low := region_low member
  rw [bit_view c low, agrees.bits k low]

theorem Agrees.scan_none (agrees : Agrees c holds m block)
    (none : block.getSubblock state type = none) : ¬ 0 ≤ getSubblock m state type := by
  rw [agrees.scan, none]
  exact of_decide_eq_false rfl

theorem Agrees.scan_some (agrees : Agrees c holds m block)
    (found : block.getSubblock state type = some idx) :
    0 ≤ getSubblock m state type ∧ (getSubblock m state type).toNat = idx ∧
      idx < totalPartitions ∧ block.bit idx = state := by
  obtain ⟨member, marked⟩ := Block.getSubblock_some found
  rw [agrees.scan, found]
  exact ⟨Int.natCast_nonneg idx, Int.toNat_natCast idx, region_low member, marked⟩

theorem Within.byte (within : Within c idx m m') {k : Nat} (other : k ≠ idx) {i : Nat}
    (low : c.blkptr k ≤ i) (high : i < c.blkptr k + c.partition) : m' i = m i := by
  apply within i
  unfold Channel.blkptr at low high ⊢
  rcases Nat.lt_or_gt_of_ne other with below | above
  · have room := Nat.mul_le_mul_right c.partition (Nat.succ_le_of_lt below)
    rw [Nat.succ_mul] at room
    omega
  · have room := Nat.mul_le_mul_right c.partition (Nat.succ_le_of_lt above)
    rw [Nat.succ_mul] at room
    omega

theorem Within.bit (within : Within c idx m m') {k : Nat} (low : k < totalPartitions) :
    bit m' k = bit m k := by
  have bmap := within.bmap c
  rw [← bit_view c low, ← bit_view c low, Block.bit, Block.bit, bmap]

theorem Within.behind (within : Within c idx m m') (low : idx < totalPartitions) {i : Nat}
    (outside : c.blkptr totalPartitions ≤ i) : m' i = m i := by
  apply within i
  unfold Channel.blkptr at outside ⊢
  have room := Nat.mul_le_mul_right c.partition (Nat.succ_le_of_lt low)
  rw [Nat.succ_mul] at room
  omega

theorem toggleBit_behind {i : Nat} (outside : c.blkptr totalPartitions ≤ i) :
    toggleBit idx m i = m i :=
  toggleBit_outside m idx ((Nat.le_add_right _ _).trans outside)

theorem Agrees.within (agrees : Agrees c holds m block) (only : Local c holds)
    (free : block.bit idx = false) (low : idx < totalPartitions) (within : Within c idx m m') :
    Agrees c holds m' block := by
  constructor
  · intro k inside
    rw [within.bit inside, agrees.bits k inside]
  · intro k inside marked
    obtain ⟨a, stored, held⟩ := agrees.records k inside marked
    have other : k ≠ idx := by
      rintro rfl
      rw [free] at marked
      cases marked
    exact ⟨a, stored, only m m' _ a (fun _ => within.byte other) held⟩
  · intro i outside
    rw [within.behind low outside, agrees.behind i outside]

theorem holds_toggleBit (only : Local c holds) {k : Nat} (held : holds m (c.blkptr k) a) :
    holds (toggleBit idx m) (c.blkptr k) a :=
  only m _ _ a (fun _ low _ => toggleBit_outside m idx ((Nat.le_add_right _ _).trans low)) held

theorem Agrees.write (agrees : Agrees c holds m block) (only : Local c holds)
    (free : block.bit idx = false) (low : idx < totalPartitions) (within : Within c idx m m')
    (held : holds m' (c.blkptr idx) a) : Agrees c holds (toggleBit idx m') (block.write idx a) := by
  have before := agrees.within only free low within
  constructor
  · intro k inside
    rw [bit_toggleBit m' low inside, Block.bit_write free, before.bits k inside]
    by_cases same : k = idx
    · rw [if_pos same, same, free, Function.update_self]
      rfl
    · rw [if_neg same, Function.update_of_ne same]
  · intro k inside marked
    by_cases same : k = idx
    · subst same
      exact ⟨a, by simp [Block.write], holds_toggleBit only held⟩
    · rw [Block.bit_write free, Function.update_of_ne same] at marked
      obtain ⟨b, stored, kept⟩ := before.records k inside marked
      exact ⟨b, by simpa [Block.write, Function.update_of_ne same] using stored,
        holds_toggleBit only kept⟩
  · intro i outside
    rw [toggleBit_behind outside, before.behind i outside]

theorem Agrees.free (agrees : Agrees c holds m block) (only : Local c holds)
    (taken : block.bit idx = true) (low : idx < totalPartitions) (within : Within c idx m m') :
    Agrees c holds (toggleBit idx m') (block.toggleBit idx) := by
  constructor
  · intro k inside
    rw [bit_toggleBit m' low inside, Block.bit_clear taken, within.bit inside, agrees.bits k inside]
    by_cases same : k = idx
    · rw [if_pos same, same, taken, Function.update_self]
      rfl
    · rw [if_neg same, Function.update_of_ne same]
  · intro k inside marked
    rw [Block.bit_clear taken] at marked
    by_cases same : k = idx
    · simp [same] at marked
    · rw [Function.update_of_ne same] at marked
      obtain ⟨b, stored, kept⟩ := agrees.records k inside marked
      exact ⟨b, stored, holds_toggleBit only (only m m' _ b (fun _ => within.byte same) kept)⟩
  · intro i outside
    rw [toggleBit_behind outside, within.behind low outside, agrees.behind i outside]

theorem Agrees.clear (agrees : Agrees c holds m block) (only : Local c holds)
    (taken : block.bit idx = true) (low : idx < totalPartitions) :
    Agrees c holds (toggleBit idx m) (block.toggleBit idx) :=
  agrees.free only taken low fun _ _ => rfl

theorem agrees_zero : Agrees c holds (fun _ => 0) (Block.empty : Block α) := by
  have free (k : Nat) : (Block.empty : Block α).bit k = false := Block.bit_empty k
  constructor
  · intro k low
    rw [free, ← Block.bit_empty (α := α) k]
    rfl
  · intro k _ marked
    rw [free] at marked
    cases marked
  · intro _ _
    rfl

end Agrees

end Bitmap

end FileSharing
