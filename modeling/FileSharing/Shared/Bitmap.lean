import FileSharing.Library.Memory
import FileSharing.Library.Runs
import FileSharing.Shared.Partition

/-! The shared blocks as bytes: ten of the bitmap, and behind them the partitions. -/

namespace FileSharing

open Library

namespace Bitmap

def bmapSize : Nat := totalPartitions / 8

/-- The position, or -1. -/
def getSubblock (block : Memory) (state : Bool) (type : Nat) : Int :=
  let bmap := slice block 0 bmapSize
  let start := if type = 2 then bmapSize / 2 else 0
  let stop := if type = 1 then bmapSize / 2 else bmapSize
  let found := (List.range' start (stop - start)).findSome? fun i =>
    (List.range 8).findSome? fun j =>
      if state = Block.readBit ((bmap[i]?).getD 0).toBitVec j then some (i * 8 + j) else none
  found.elim (-1) fun idx => (idx : Int)

/-- The bitmap is copied out, changed and copied back. -/
def toggleBit (idx : Nat) (block : Memory) : Memory :=
  let bmap := slice block 0 bmapSize
  copyTo block 0 (bmap.modify (idx / 8) fun byte =>
    .ofBitVec ((byte.toBitVec.signExtend 32 ^^^ 1#32 <<< (idx % 8)).truncate 8))

def bit (block : Memory) (k : Nat) : Bool := Block.readBit (block (k / 8)).toBitVec (k % 8)

/-- One kind of message: the region of the block, the size of a partition and that of the record
in it. -/
structure Channel where
  type : Nat
  partition : Nat
  record : Nat
  fits : record ≤ partition

namespace Channel

variable (c : Channel)

def blkptr (position : Nat) : Nat := bmapSize + position * c.partition

def view (block : Memory) : Block (List UInt8) where
  bmap i := if i < bmapSize then (block i).toBitVec else 0
  partitions k := some (slice block (c.blkptr k) c.record)

def held (block : Memory) : List (List UInt8) := (c.view block).held c.type

end Channel

section Scan

variable (c : Channel) {block : Memory} {state : Bool} {type idx : Nat}

theorem bit_view {k : Nat} (low : k < totalPartitions) : (c.view block).bit k = bit block k := by
  have byte : k / 8 < bmapSize := by
    change k / 8 < 10
    change k < 80 at low
    omega
  simp only [Block.bit, Channel.view, if_pos byte, bit]

theorem region_low {k : Nat} (member : k ∈ Block.region type) : k < totalPartitions := by
  change k < 80
  unfold Block.region at member
  split at member
  · have := List.mem_range'_1.mp member
    omega
  · split at member
    · have := List.mem_range'_1.mp member
      omega
    · have := List.mem_range'_1.mp member
      omega

theorem getSubblock_view (block : Memory) (state : Bool) (type : Nat) :
    getSubblock block state type =
      ((c.view block).getSubblock state type).elim (-1) fun idx => (idx : Int) := by
  have byte (i : Nat) : ((slice block 0 bmapSize)[i]?.getD 0).toBitVec = (c.view block).bmap i := by
    by_cases low : i < bmapSize
    · simp [slice, Channel.view, low]
    · simp [slice, Channel.view, low]
  unfold getSubblock Block.getSubblock
  simp only [byte]
  rfl

theorem getSubblock_found : getSubblock block state type = idx ↔
    (c.view block).getSubblock state type = some idx := by
  rw [getSubblock_view c]
  cases (c.view block).getSubblock state type with
  | none => simp
  | some k => simp

end Scan

section Toggle

variable {block : Memory} {idx a : Nat}

theorem toggleBit_outside (block : Memory) (idx : Nat) (outside : bmapSize ≤ a) :
    toggleBit idx block a = block a := by
  apply copyTo_outside
  right
  rw [List.length_modify, length_slice, Nat.zero_add]
  exact outside

theorem toggleBit_inside (block : Memory) (idx : Nat) {i : Nat} (inside : i < bmapSize) :
    (toggleBit idx block i).toBitVec = if i = idx / 8
      then ((block i).toBitVec.signExtend 32 ^^^ 1#32 <<< (idx % 8)).truncate 8
      else (block i).toBitVec := by
  have byte : (slice block 0 bmapSize)[i]? = some (block i) := by simp [slice, inside]
  rw [toggleBit, copyTo, if_pos (Nat.zero_le i), Nat.sub_zero, List.getElem?_modify, byte]
  by_cases same : i = idx / 8
  · simp [same]
  · simp [same, Ne.symm same]

theorem slice_toggleBit (block : Memory) (idx : Nat) {base count : Nat} (outside : bmapSize ≤ base) :
    slice (toggleBit idx block) base count = slice block base count := by
  apply slice_congr
  intro a low high
  exact toggleBit_outside block idx (outside.trans low)

theorem view_toggleBit (c : Channel) (block : Memory) (low : idx < totalPartitions) :
    c.view (toggleBit idx block) = (c.view block).toggleBit idx := by
  have byte : idx / 8 < bmapSize := by
    change idx / 8 < 10
    change idx < 80 at low
    omega
  simp only [Channel.view, Block.toggleBit, Block.mk.injEq]
  constructor
  · funext i
    by_cases inside : i < bmapSize
    · simp only [if_pos inside, toggleBit_inside block idx inside]
    · have other : i ≠ idx / 8 := by omega
      simp only [if_neg inside, if_neg other]
  · funext k
    rw [slice_toggleBit]
    exact Nat.le_add_right _ _

theorem bit_toggleBit (block : Memory) (low : idx < totalPartitions) {k : Nat}
    (inside : k < totalPartitions) :
    bit (toggleBit idx block) k = if k = idx then !bit block k else bit block k := by
  let c : Channel := ⟨3, 0, 0, Nat.le_refl 0⟩
  have flipped := congrFun (Block.bit_toggle (c.view block) idx) k
  rw [← view_toggleBit c block low, bit_view c inside] at flipped
  rw [flipped]
  by_cases same : k = idx
  · subst same
    rw [Function.update_self, if_pos rfl, bit_view c inside]
  · rw [Function.update_of_ne same, if_neg same, bit_view c inside]

structure Scanned (block : Memory) (state : Bool) (type : Nat) : Prop where
  none : getSubblock block state type = -1 ↔ ∀ k ∈ Block.region type, bit block k ≠ state
  least : ∀ position : Int, getSubblock block state type = position → position ≠ -1 →
    ∃ k : Nat, position = k ∧ k ∈ Block.region type ∧ bit block k = state ∧
      ∀ j ∈ Block.region type, j < k → bit block j ≠ state
  flipped : ∀ k : Nat, getSubblock block state type = k → ∀ j < totalPartitions,
    bit (toggleBit k block) j = if j = k then !bit block j else bit block j
  partitions : ∀ k : Nat, getSubblock block state type = k → ∀ a, bmapSize ≤ a →
    toggleBit k block a = block a

theorem scanned (block : Memory) (state : Bool) (type : Nat) : Scanned block state type := by
  let c : Channel := ⟨type, 0, 0, Nat.le_refl 0⟩
  have bits (k : Nat) (member : k ∈ Block.region type) : (c.view block).bit k = bit block k :=
    bit_view c (region_low member)
  constructor
  · rw [getSubblock_view c]
    cases found : (c.view block).getSubblock state type with
    | none =>
        refine iff_of_true rfl fun k member => ?_
        rw [← bits k member, Block.getSubblock_none.mp found k member]
        exact Bool.not_ne_self state
    | some k =>
        obtain ⟨member, marked⟩ := Block.getSubblock_some found
        rw [Option.elim_some]
        refine iff_of_false (by omega) fun free => ?_
        exact free k member ((bits k member).symm.trans marked)
  · intro position known some
    rw [getSubblock_view c] at known
    cases found : (c.view block).getSubblock state type with
    | none =>
        rw [found] at known
        exact absurd known.symm some
    | some k =>
        rw [found] at known
        obtain ⟨member, marked⟩ := Block.getSubblock_some found
        refine ⟨k, known.symm, member, (bits k member).symm.trans marked, ?_⟩
        intro j inside below same
        rw [Block.getSubblock_eq] at found
        obtain ⟨-, before, after, split, missed⟩ := List.find?_eq_some_iff_append.mp found
        have sorted := split ▸ Block.region_sorted type
        have early : j ∈ before := by
          cases List.mem_append.mp (split ▸ inside) with
          | inl early => exact early
          | inr late =>
              have order := (List.pairwise_append.mp sorted).2.1
              cases List.mem_cons.mp late with
              | inl equal => omega
              | inr later =>
                  have above := (List.pairwise_cons.mp order).1 j later
                  omega
        have unequal := missed j early
        rw [bits j inside, same] at unequal
        simp at unequal
  · intro k known j inside
    have member := (Block.getSubblock_some ((getSubblock_found c).mp known)).1
    exact bit_toggleBit block (region_low member) inside
  · intro k _ a outside
    exact toggleBit_outside block k outside

end Toggle

section Partitions

variable {c c' : Channel} {block block' : Memory} {position : Nat}

def Within (c : Channel) (position : Nat) (block block' : Memory) : Prop :=
  ∀ a, a < c.blkptr position ∨ c.blkptr position + c.partition ≤ a → block' a = block a

theorem within_copyTo {bytes : List UInt8} (fits : bytes.length ≤ c.partition) :
    Within c position block (copyTo block (c.blkptr position) bytes) := by
  intro a outside
  apply copyTo_outside
  omega

theorem Within.trans {last : Memory} (first : Within c position block block')
    (second : Within c position block' last) : Within c position block last :=
  fun a outside => (second a outside).trans (first a outside)

theorem Within.bmap (within : Within c position block block') (c' : Channel) :
    (c'.view block').bmap = (c'.view block).bmap := by
  funext i
  have behind : bmapSize ≤ c.blkptr position := Nat.le_add_right _ _
  by_cases inside : i < bmapSize
  · simp only [Channel.view, if_pos inside]
    rw [within i (.inl (by omega))]
  · simp only [Channel.view, if_neg inside]

theorem Within.partition (within : Within c position block block') (same : c'.partition = c.partition)
    {k : Nat} (other : k ≠ position) :
    (c'.view block').partitions k = (c'.view block).partitions k := by
  have fits := c'.fits
  have bytes : slice block' (c'.blkptr k) c'.record = slice block (c'.blkptr k) c'.record := by
    apply slice_congr
    intro a low high
    apply within a
    unfold Channel.blkptr at low high ⊢
    rw [same] at low high fits
    rcases Nat.lt_or_gt_of_ne other with below | above
    · have room := Nat.mul_le_mul_right c.partition (Nat.succ_le_of_lt below)
      rw [Nat.succ_mul] at room
      omega
    · have room := Nat.mul_le_mul_right c.partition (Nat.succ_le_of_lt above)
      rw [Nat.succ_mul] at room
      omega
  simp only [Channel.view, bytes]

theorem Within.held (within : Within c position block block') (same : c'.partition = c.partition)
    (unused : ∀ k ∈ Block.region c'.type, (c'.view block).bit k = true → k ≠ position) :
    c'.held block' = c'.held block := by
  have bits : (c'.view block').bit = (c'.view block).bit := by
    funext k
    rw [Block.bit, Block.bit, within.bmap c']
  apply contents_congr
  · intro k _
    rw [bits]
  · intro k member marked
    rw [bits] at marked
    exact within.partition same (unused k member marked)

theorem held_toggle_outside {α : Type} {view : Block α} {type : Nat}
    (outside : position ∉ Block.region type) :
    (view.toggleBit position).held type = view.held type := by
  have apart (k : Nat) (member : k ∈ Block.region type) : k ≠ position :=
    fun same => outside (same ▸ member)
  apply contents_congr
  · intro k member
    rw [Block.bit_toggle, Function.update_of_ne (apart k member)]
  · intro k _ _
    rfl

theorem held_apart (within : Within c position block block') (same : c'.partition = c.partition)
    (low : position < totalPartitions) (outside : position ∉ Block.region c'.type) :
    c'.held (toggleBit position block') = c'.held block := by
  rw [Channel.held, view_toggleBit c' block' low, held_toggle_outside outside]
  exact within.held same fun k member _ met => outside (met ▸ member)

end Partitions

abbrev Bytes (n : Nat) := { bytes : List UInt8 // bytes.length = n }

def writeMessage (c : Channel) (message : Bytes c.record) (position : Nat) (block : Memory) : Memory :=
  let cleared := copyTo block (c.blkptr position) (List.replicate c.partition 0)
  toggleBit position (copyTo cleared (c.blkptr position) message)

/-- The loop of `send_to_processor` and `send_message_to_processor`, with the attempts that are
left; the lock is held from the first to the last of them. -/
def send (c : Channel) (message : Bytes c.record) : Nat → Memory → Memory
  | 0, block => block
  | attempts + 1, block =>
      let position := getSubblock block false c.type
      if 0 ≤ position then writeMessage c message position.toNat block
      else send c message attempts block

/-- The critical section of `get_data_from_receiver` and `get_message_from_receiver`: the record
that is stored in the database, and the block. -/
def readMessage (c : Channel) (block : Memory) : Option (List UInt8) × Memory :=
  let position := getSubblock block true c.type
  if 0 ≤ position then
    (some (slice block (c.blkptr position.toNat) c.record), toggleBit position.toNat block)
  else (none, block)

section Sections

variable (c : Channel) {c' : Channel} {block : Memory} {position : Nat}

theorem within_write (message : Bytes c.record) (block : Memory) (position : Nat) :
    Within c position block (copyTo (copyTo block (c.blkptr position) (List.replicate c.partition 0))
      (c.blkptr position) message) := by
  have cleared : Within c position block
      (copyTo block (c.blkptr position) (List.replicate c.partition 0)) :=
    within_copyTo (by rw [List.length_replicate])
  exact cleared.trans (within_copyTo (message.2.trans_le c.fits))

theorem view_writeMessage (message : Bytes c.record) (block : Memory)
    (low : position < totalPartitions) :
    c.view (writeMessage c message position block) = (c.view block).write position message := by
  let cleared := copyTo block (c.blkptr position) (List.replicate c.partition 0)
  have within := within_write c message block position
  have filled : c.view (copyTo cleared (c.blkptr position) message) =
      (c.view block).put position message := by
    have bmap := within.bmap c
    have partitions : (c.view (copyTo cleared (c.blkptr position) message)).partitions =
        Function.update (c.view block).partitions position (some message) := by
      funext k
      by_cases same : k = position
      · subst same
        have copied := slice_copyTo cleared (c.blkptr k) message
        rw [message.2] at copied
        rw [Function.update_self]
        exact congrArg some copied
      · rw [Function.update_of_ne same]
        exact within.partition rfl same
    calc
      c.view (copyTo cleared (c.blkptr position) message) =
          ⟨(c.view block).bmap, Function.update (c.view block).partitions position (some message)⟩ := by
        rw [← bmap, ← partitions]
      _ = (c.view block).put position message := rfl
  rw [writeMessage, view_toggleBit c _ low, filled]
  rfl

theorem writeMessage_held (message : Bytes c.record)
    (found : getSubblock block false c.type = position) :
    (c.held (writeMessage c message position block)).Perm (message.1 :: c.held block) := by
  have free := (getSubblock_found c).mp found
  have low := region_low (Block.getSubblock_some free).1
  rw [Channel.held, view_writeMessage c message block low]
  exact Block.held_write free

theorem writeMessage_apart (message : Bytes c.record) (same : c'.partition = c.partition)
    (found : getSubblock block false c.type = position)
    (apart : ∀ k ∈ Block.region c.type, k ∉ Block.region c'.type) :
    c'.held (writeMessage c message position block) = c'.held block := by
  have member := (Block.getSubblock_some ((getSubblock_found c).mp found)).1
  exact held_apart (within_write c message block position) same (region_low member)
    (apart position member)

theorem read_held {block' : Memory} (within : Within c position block block')
    (found : getSubblock block true c.type = position) :
    (c.held block).Perm (slice block (c.blkptr position) c.record ::
      c.held (toggleBit position block')) := by
  have taken := (getSubblock_found c).mp found
  have low := region_low (Block.getSubblock_some taken).1
  have emptied : c.held (toggleBit position block') =
      ((c.view block).toggleBit position).held c.type := by
    have bits : (c.view (toggleBit position block')).bit =
        ((c.view block).toggleBit position).bit := by
      rw [view_toggleBit c block' low, Block.bit_toggle, Block.bit_toggle]
      have same : (c.view block').bit = (c.view block).bit := by
        funext k
        rw [Block.bit, Block.bit, within.bmap c]
      rw [same]
    apply contents_congr
    · intro k _
      rw [bits]
    · intro k _ marked
      rw [bits, Block.bit_clear (Block.getSubblock_some taken).2] at marked
      have other : k ≠ position := by
        rintro rfl
        simp at marked
      rw [view_toggleBit c block' low]
      exact within.partition rfl other
  rw [emptied]
  exact Block.held_clear taken rfl

def written (message : Bytes c.record) (block : Memory) : List (List UInt8) :=
  if 0 ≤ getSubblock block false c.type then [message.1] else []

theorem position_of_nonneg {state : Bool} {type : Nat} (found : 0 ≤ getSubblock block state type) :
    getSubblock block state type = (getSubblock block state type).toNat :=
  (Int.toNat_of_nonneg found).symm

theorem send_eq (message : Bytes c.record) (attempts : Nat) (block : Memory) :
    send c message (attempts + 1) block = if 0 ≤ getSubblock block false c.type
      then writeMessage c message (getSubblock block false c.type).toNat block else block := by
  induction attempts with
  | zero => rfl
  | succ attempts ih =>
      rw [send]
      by_cases found : 0 ≤ getSubblock block false c.type
      · simp only [if_pos found]
      · simp only [if_neg found] at ih ⊢
        exact ih

theorem send_held (message : Bytes c.record) (attempts : Nat) (block : Memory) :
    (c.held (send c message (attempts + 1) block)).Perm (written c message block ++ c.held block) := by
  rw [send_eq, written]
  by_cases found : 0 ≤ getSubblock block false c.type
  · rw [if_pos found, if_pos found]
    exact writeMessage_held c message (position_of_nonneg found)
  · rw [if_neg found, if_neg found, List.nil_append]

theorem send_apart (message : Bytes c.record) (attempts : Nat) (block : Memory)
    (same : c'.partition = c.partition)
    (apart : ∀ k ∈ Block.region c.type, k ∉ Block.region c'.type) :
    c'.held (send c message (attempts + 1) block) = c'.held block := by
  rw [send_eq]
  by_cases found : 0 ≤ getSubblock block false c.type
  · rw [if_pos found]
    exact writeMessage_apart c message same (position_of_nonneg found) apart
  · rw [if_neg found]

theorem readMessage_held (block : Memory) :
    (c.held block).Perm ((readMessage c block).1.toList ++ c.held (readMessage c block).2) := by
  rw [readMessage]
  by_cases found : 0 ≤ getSubblock block true c.type
  · simp only [if_pos found]
    exact read_held c (fun _ _ => rfl) (position_of_nonneg found)
  · simp only [if_neg found]
    exact List.Perm.refl _

theorem readMessage_apart (block : Memory) (same : c'.partition = c.partition)
    (apart : ∀ k ∈ Block.region c.type, k ∉ Block.region c'.type) :
    c'.held (readMessage c block).2 = c'.held block := by
  rw [readMessage]
  by_cases found : 0 ≤ getSubblock block true c.type
  · simp only [if_pos found]
    have member :=
      (Block.getSubblock_some ((getSubblock_found c).mp (position_of_nonneg found))).1
    have within : Within c (getSubblock block true c.type).toNat block block := fun _ _ => rfl
    exact held_apart within same (region_low member) (apart _ member)
  · simp only [if_neg found]

theorem getSubblock_held (block : Memory) :
    getSubblock block true c.type = -1 ↔ c.held block = [] := by
  rw [getSubblock_view c]
  cases found : (c.view block).getSubblock true c.type with
  | none => simp [Channel.held, Block.held_of_none found]
  | some k =>
      have occupied : c.held block ≠ [] := by
        intro none
        have perm := Block.held_clear found rfl
        rw [← Channel.held, none] at perm
        exact absurd perm.length_eq (by simp)
      rw [Option.elim_some]
      exact iff_of_false (by omega) occupied

/-- The reader takes the message of the lowest occupied partition. -/
theorem first_held (block : Memory) :
    (if 0 ≤ getSubblock block true c.type then
      some (slice block (c.blkptr (getSubblock block true c.type).toNat) c.record) else none) =
        (c.held block).head? := by
  by_cases found : 0 ≤ getSubblock block true c.type
  · have first := Block.held_first ((getSubblock_found c).mp (position_of_nonneg found))
    rw [if_pos found, Channel.held, first]
    rfl
  · have nothing : getSubblock block true c.type = -1 := by
      have low := (scanned block true c.type).least _ rfl
      by_contra other
      obtain ⟨k, same, -⟩ := low other
      omega
    rw [if_neg found, (getSubblock_held c block).mp nothing]
    rfl

theorem readMessage_first (block : Memory) :
    (readMessage c block).1 = (c.held block).head? := by
  rw [← first_held c block, readMessage]
  split
  · rfl
  · rfl

end Sections

end Bitmap

end FileSharing
