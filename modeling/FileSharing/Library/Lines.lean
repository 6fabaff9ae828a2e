import Mathlib.Data.List.Basic
import Mathlib.Tactic

/-! Lines read from a stream into a buffer of bounded size. -/

namespace FileSharing.Library

variable {α : Type} [DecidableEq α] {stop : α} {room : Nat} {line input rest : List α}

/-- What a buffer with this room takes from the input, and what it leaves: it takes nothing
behind the end of a line. -/
def takeLine (stop : α) : Nat → List α → List α × List α
  | 0, input => ([], input)
  | _ + 1, [] => ([], [])
  | room + 1, x :: rest =>
      if x = stop then ([x], rest)
      else (x :: (takeLine stop room rest).1, (takeLine stop room rest).2)

theorem takeLine_append (stop : α) (room : Nat) (input : List α) :
    (takeLine stop room input).1 ++ (takeLine stop room input).2 = input := by
  induction room generalizing input with
  | zero => rfl
  | succ room ih =>
      cases input with
      | nil => rfl
      | cons x rest =>
          unfold takeLine
          split
          · rfl
          · rw [List.cons_append, ih]

theorem takeLine_nil_iff (positive : 0 < room) :
    (takeLine stop room input).1 = [] ↔ input = [] := by
  obtain ⟨room, rfl⟩ := Nat.exists_eq_succ_of_ne_zero positive.ne'
  cases input with
  | nil => simp [takeLine]
  | cons x rest =>
      unfold takeLine
      split
      · simp
      · simp

theorem takeLine_shortens (positive : 0 < room) (some : input ≠ []) :
    (takeLine stop room input).2.length < input.length := by
  have taken : 0 < (takeLine stop room input).1.length :=
    List.length_pos_iff.mpr fun none => some ((takeLine_nil_iff positive).mp none)
  have whole := congrArg List.length (takeLine_append stop room input)
  rw [List.length_append] at whole
  omega

theorem takeLine_fits (within : stop ∉ line) (fits : line.length < room) :
    takeLine stop room (line ++ stop :: rest) = (line ++ [stop], rest) := by
  induction line generalizing room with
  | nil =>
      obtain ⟨room, rfl⟩ := Nat.exists_eq_succ_of_ne_zero (Nat.ne_of_gt fits)
      simp [takeLine]
  | cons x line ih =>
      obtain ⟨room, rfl⟩ := Nat.exists_eq_succ_of_ne_zero (Nat.ne_of_gt (Nat.zero_lt_of_lt fits))
      rw [List.mem_cons, not_or] at within
      have tail := ih within.2 (Nat.lt_of_succ_lt_succ fits)
      rw [List.cons_append, takeLine, if_neg (Ne.symm within.1), tail]
      rfl

theorem takeLine_full (within : stop ∉ line) (full : room ≤ line.length) :
    takeLine stop room (line ++ rest) = (line.take room, line.drop room ++ rest) := by
  induction room generalizing line with
  | zero => rfl
  | succ room ih =>
      cases line with
      | nil => simp at full
      | cons x line =>
          rw [List.mem_cons, not_or] at within
          have tail := ih within.2 (Nat.le_of_succ_le_succ full)
          rw [List.cons_append, takeLine, if_neg (Ne.symm within.1), tail]
          rfl

end FileSharing.Library
