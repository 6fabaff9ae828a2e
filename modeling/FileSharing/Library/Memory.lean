import Mathlib.Tactic

/-! A memory of bytes: what `memcpy` and `memset` change, and what they leave alone. -/

namespace FileSharing.Library

abbrev Memory := Nat → UInt8

def copyTo (m : Memory) (base : Nat) (bytes : List UInt8) : Memory := fun a =>
  if base ≤ a then (bytes[a - base]?).getD (m a) else m a

def slice (m : Memory) (base count : Nat) : List UInt8 := (List.range count).map fun i => m (base + i)

@[simp] theorem length_slice (m : Memory) (base count : Nat) : (slice m base count).length = count := by
  simp [slice]

theorem slice_moved {m n : Memory} {a b count : Nat}
    (moved : ∀ i < count, m (a + i) = n (b + i)) : slice m a count = slice n b count := by
  apply List.map_congr_left
  intro i member
  exact moved i (List.mem_range.mp member)

theorem slice_congr {m m' : Memory} {base count : Nat}
    (same : ∀ a, base ≤ a → a < base + count → m a = m' a) : slice m base count = slice m' base count := by
  apply List.map_congr_left
  intro i member
  have bound := List.mem_range.mp member
  exact same (base + i) (Nat.le_add_right _ _) (by omega)

theorem copyTo_outside (m : Memory) {base a : Nat} {bytes : List UInt8}
    (outside : a < base ∨ base + bytes.length ≤ a) : copyTo m base bytes a = m a := by
  unfold copyTo
  split
  · rw [List.getElem?_eq_none (by omega)]
    rfl
  · rfl

theorem slice_copyTo (m : Memory) (base : Nat) (bytes : List UInt8) :
    slice (copyTo m base bytes) base bytes.length = bytes := by
  apply List.ext_getElem
  · simp
  · intro i low high
    simp [slice, copyTo, high]

theorem slice_copyTo_part (m : Memory) (base : Nat) (before bytes after : List UInt8) :
    slice (copyTo m base (before ++ bytes ++ after)) (base + before.length) bytes.length = bytes := by
  apply List.ext_getElem
  · simp
  · intro i low high
    have place : base + before.length + i - base = before.length + i := by omega
    have above : base ≤ base + before.length + i := by omega
    have stored : (before ++ bytes ++ after)[before.length + i]? = some bytes[i] := by
      rw [List.append_assoc, List.getElem?_append_right (Nat.le_add_right _ _),
        Nat.add_sub_cancel_left, List.getElem?_append_left high, List.getElem?_eq_getElem high]
    simp only [slice, List.getElem_map, List.getElem_range, copyTo, if_pos above, place, stored,
      Option.getD_some]

theorem slice_copyTo_apart (m : Memory) {base other count : Nat} {bytes : List UInt8}
    (apart : base + bytes.length ≤ other ∨ other + count ≤ base) :
    slice (copyTo m base bytes) other count = slice m other count := by
  apply slice_congr
  intro a low high
  exact copyTo_outside m (by omega)

def copyFrom (m : Memory) (base : Nat) (n : Memory) (start count : Nat) : Memory := fun a =>
  if base ≤ a ∧ a < base + count then n (start + (a - base)) else m a

theorem copyFrom_inside (m : Memory) (base : Nat) (n : Memory) (start : Nat) {count i : Nat}
    (inside : i < count) : copyFrom m base n start count (base + i) = n (start + i) := by
  rw [copyFrom, if_pos ⟨Nat.le_add_right _ _, Nat.add_lt_add_left inside base⟩,
    Nat.add_sub_cancel_left]

theorem copyFrom_outside (m : Memory) (n : Memory) (start : Nat) {base count a : Nat}
    (outside : a < base ∨ base + count ≤ a) : copyFrom m base n start count a = m a :=
  if_neg (by omega)

end FileSharing.Library
