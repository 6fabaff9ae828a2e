import FileSharing.Database.Values
import FileSharing.Library.Fallible

/-! What the casts of the header fields can do to their length, and to the last digit of a
number. -/

namespace FileSharing

open Library

theorem length_unescape {t : Text} {data : Bytea} (done : unescape t = .ok data) :
    data.length ≤ t.length ∧ (data.length = t.length → 92 ∉ t) := by
  induction t using unescape.induct generalizing data with
  | case1 =>
      cases done
      simp
  | case2 c rest other ih =>
      rw [unescape_cons other] at done
      obtain ⟨tail, read, same⟩ := bind_ok.mp done
      obtain rfl := pure_ok.mp same
      obtain ⟨bound, free⟩ := ih read
      simp only [List.length_cons, List.mem_cons, not_or]
      exact ⟨by omega, fun same => ⟨Ne.symm other, free (by omega)⟩⟩
  | case3 c escape =>
      simp [unescape, escape] at done
  | case4 c escape tail ih =>
      obtain rfl : c = 92 := by simpa using escape
      unfold unescape at done
      simp only [ne_eq, not_true_eq_false, if_false, if_true, bind_ok, pure_ok] at done
      obtain ⟨rest, read, rfl⟩ := done
      have bound := (ih read).1
      simp only [List.length_cons]
      omega
  | case5 c escape d other e f tail octal ih =>
      obtain rfl : c = 92 := by simpa using escape
      simp only [unescape, ne_eq, not_true_eq_false, if_false, if_neg other, if_pos octal, bind_ok,
        pure_ok] at done
      obtain ⟨rest, read, rfl⟩ := done
      have bound := (ih read).1
      simp only [List.length_cons]
      omega
  | case6 c escape d other e f tail octal =>
      obtain rfl : c = 92 := by simpa using escape
      simp [unescape, other, octal] at done
  | case7 c escape d tail other short =>
      obtain rfl : c = 92 := by simpa using escape
      unfold unescape at done
      simp only [ne_eq, not_true_eq_false, if_false, if_neg other] at done
      cases done

theorem length_hexDecode {t : Text} {data : Bytea} (done : hexDecode t = .ok data) :
    data.length ≤ t.length := by
  induction t using hexDecode.induct generalizing data with
  | case1 =>
      cases done
      simp
  | case2 c rest space ih =>
      unfold hexDecode at done
      rw [if_pos space] at done
      have bound := ih done
      rw [List.length_cons]
      omega
  | case3 c digit =>
      unfold hexDecode at done
      rw [if_neg digit] at done
      cases done
  | case4 c digit d tail high low second first ih =>
      rw [hexDecode, if_neg digit] at done
      simp only [first, second, bind_ok, pure_ok] at done
      obtain ⟨rest, read, rfl⟩ := done
      have bound := ih read
      simp only [List.length_cons]
      omega
  | case5 c digit d tail wrong =>
      rw [hexDecode, if_neg digit] at done
      split at done
      · next high low first second => exact (wrong high low first second).elim
      · cases done

theorem length_byteain {t : Text} {data : Bytea} (done : byteain t = .ok data) :
    data.length ≤ t.length ∧ (data.length = t.length → 92 ∉ t) := by
  unfold byteain at done
  split at done
  · next hex =>
      have bound := length_hexDecode done
      have long : 2 ≤ t.length := by
        have two := congrArg List.length hex
        rw [List.length_take] at two
        simp at two
        omega
      rw [List.length_drop] at bound
      omega
  · exact length_unescape done

theorem byteain_exact_iff {t : Text} :
    (∃ data, byteain t = .ok data ∧ data.length = t.length) ↔ 92 ∉ t := by
  constructor
  · rintro ⟨data, done, same⟩
    exact (length_byteain done).2 same
  · intro free
    exact ⟨t, byteain_free free, rfl⟩

theorem unsignedIn_last {negative : Bool} {t : Text} {b : UInt8} {n : Int}
    (solid : isSpace b = false) (read : unsignedIn negative (t ++ [b]) = some n) :
    n.natAbs % 10 = b.toNat - 48 := by
  have form : (t ++ [b]).takeWhile isDigit ≠ [] ∧
      ((t ++ [b]).dropWhile isDigit).all isSpace = true := by
    by_contra other
    simp only [unsignedIn, if_neg other] at read
    cases read
  simp only [unsignedIn, if_pos form] at read
  have all : (t ++ [b]).dropWhile isDigit = [] := by
    by_contra rest
    obtain ⟨front, last, shape⟩ := (List.eq_nil_or_concat _).resolve_left rest
    obtain ⟨before, whole⟩ : (t ++ [b]).dropWhile isDigit <:+ t ++ [b] := List.dropWhile_suffix _
    rw [shape, List.concat_eq_append, ← List.append_assoc] at whole
    have same : last = b := by simpa using (List.append_inj' whole rfl).2
    have blank : isSpace last = true := by
      apply List.all_eq_true.mp form.2
      simp [shape]
    rw [same, solid] at blank
    cases blank
  have whole : (t ++ [b]).takeWhile isDigit = t ++ [b] := by
    have split : (t ++ [b]).takeWhile isDigit ++ (t ++ [b]).dropWhile isDigit = t ++ [b] :=
      List.takeWhile_append_dropWhile
    rwa [all, List.append_nil] at split
  have digit : isDigit b = true :=
    List.takeWhile_eq_self_iff.mp whole b (List.mem_append_right _ (List.mem_singleton_self b))
  have value : digitsValue (t ++ [b]) = digitsValue t * 10 + (b.toNat - 48) := by
    simp [digitsValue]
  have small : b.toNat - 48 < 10 := by
    simp only [isDigit, Bool.and_eq_true, decide_eq_true_eq, UInt8.le_iff_toNat_le] at digit
    have high : b.toNat ≤ 57 := digit.2
    omega
  rw [whole, value] at read
  have known := Option.some.inj read
  split at known <;> omega

theorem integerIn_last {t : Text} {b : UInt8} {n : Int} (solid : isSpace b = false)
    (read : integerIn (t ++ [b]) = some n) : n.natAbs % 10 = b.toNat - 48 := by
  obtain ⟨front, shape⟩ : ∃ front, (t ++ [b]).dropWhile isSpace = front ++ [b] := by
    rw [List.dropWhile_append]
    split
    · exact ⟨[], by simp [solid]⟩
    · exact ⟨_, rfl⟩
  unfold integerIn at read
  rw [shape] at read
  cases front with
  | nil =>
      simp only [List.nil_append] at read
      split at read
      · cases read
      · split at read
        · cases read
        · exact unsignedIn_last (t := []) solid read
  | cons c rest =>
      simp only [List.cons_append] at read
      split at read
      · exact unsignedIn_last solid read
      · split at read
        · exact unsignedIn_last solid read
        · exact unsignedIn_last (t := c :: rest) solid read

end FileSharing
