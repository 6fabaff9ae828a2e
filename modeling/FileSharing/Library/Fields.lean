import Mathlib.Data.List.DropRight
import Mathlib.Tactic

/-! Records that are a concatenation of fields, padding on the right, and lists cut into
pieces of one length. -/

namespace FileSharing.Library

variable {α : Type}

section Fields

def fieldStart (fields : List (List α)) (i : Nat) : Nat := (fields.take i).flatten.length

@[simp] theorem fieldStart_zero (fields : List (List α)) : fieldStart fields 0 = 0 := by
  simp [fieldStart]

@[simp] theorem fieldStart_succ (field : List α) (rest : List (List α)) (i : Nat) :
    fieldStart (field :: rest) (i + 1) = field.length + fieldStart rest i := by
  simp [fieldStart]

theorem drop_fieldStart (fields : List (List α)) (i : Nat) :
    fields.flatten.drop (fieldStart fields i) = (fields.drop i).flatten := by
  calc
    fields.flatten.drop (fieldStart fields i) =
        ((fields.take i).flatten ++ (fields.drop i).flatten).drop (fieldStart fields i) := by
      rw [← List.flatten_append, List.take_append_drop]
    _ = (fields.drop i).flatten := List.drop_left

theorem take_field {fields : List (List α)} {i : Nat} {field : List α}
    (found : fields[i]? = some field) :
    (fields.flatten.drop (fieldStart fields i)).take field.length = field := by
  obtain ⟨inside, same⟩ := List.getElem?_eq_some_iff.mp found
  rw [drop_fieldStart, List.drop_eq_getElem_cons inside, List.flatten_cons, same, List.take_left]

end Fields

section Padding

variable [DecidableEq α] (blank : α)

def trimmed (xs : List α) : List α := xs.rdropWhile (· == blank)

theorem trimmed_append (xs : List α) (n : Nat) :
    trimmed blank (xs ++ List.replicate n blank) = trimmed blank xs := by
  induction n with
  | zero => rw [List.replicate_zero, List.append_nil]
  | succ n ih =>
      rw [List.replicate_succ', ← List.append_assoc, trimmed, List.rdropWhile_concat_pos _ _ _ (by simp)]
      exact ih

theorem trimmed_blanks (xs : List α) :
    xs = trimmed blank xs ++ List.replicate (xs.length - (trimmed blank xs).length) blank := by
  induction xs using List.reverseRecOn with
  | nil => rfl
  | append_singleton xs x ih =>
      by_cases same : x = blank
      · have cut : trimmed blank (xs ++ [x]) = trimmed blank xs :=
          List.rdropWhile_concat_pos _ _ _ (by simpa using same)
        have shorter : (trimmed blank xs).length ≤ xs.length :=
          (List.rdropWhile_prefix _ _).length_le
        rw [cut, List.length_append, List.length_singleton, Nat.sub_add_comm shorter,
          List.replicate_succ', ← List.append_assoc, ← ih, same]
      · have kept : trimmed blank (xs ++ [x]) = xs ++ [x] :=
          List.rdropWhile_concat_neg _ _ _ (by simpa using same)
        rw [kept, Nat.sub_self, List.replicate_zero, List.append_nil]

theorem padded_eq_iff {xs ys : List α} {n : Nat} (hx : xs.length ≤ n) (hy : ys.length ≤ n) :
    xs ++ List.replicate (n - xs.length) blank = ys ++ List.replicate (n - ys.length) blank ↔
      trimmed blank xs = trimmed blank ys := by
  constructor
  · intro same
    calc
      trimmed blank xs = trimmed blank (xs ++ List.replicate (n - xs.length) blank) :=
        (trimmed_append blank xs _).symm
      _ = trimmed blank (ys ++ List.replicate (n - ys.length) blank) := by rw [same]
      _ = trimmed blank ys := trimmed_append blank ys _
  · intro same
    have full (zs : List α) (bound : zs.length ≤ n) :
        zs ++ List.replicate (n - zs.length) blank =
          trimmed blank zs ++ List.replicate (n - (trimmed blank zs).length) blank := by
      have shorter : (trimmed blank zs).length ≤ zs.length :=
        (List.rdropWhile_prefix _ _).length_le
      conv_lhs => arg 1; rw [trimmed_blanks blank zs]
      rw [List.append_assoc, List.replicate_append_replicate]
      congr 2
      omega
    rw [full xs hx, full ys hy, same]

end Padding

section Pieces

def piece (xs : List α) (size i : Nat) : List α := (xs.drop (i * size)).take size

theorem flatten_pieces (xs : List α) (size n : Nat) :
    ((List.range n).map (piece xs size)).flatten = xs.take (n * size) := by
  induction n with
  | zero => simp
  | succ n ih =>
      rw [List.range_succ, List.map_append, List.flatten_append, ih, Nat.succ_mul,
        List.take_add]
      simp [piece]

theorem flatten_all {xs : List α} {size n : Nat} (enough : xs.length ≤ n * size) :
    ((List.range n).map (piece xs size)).flatten = xs := by
  rw [flatten_pieces, List.take_of_length_le enough]

end Pieces

end FileSharing.Library
