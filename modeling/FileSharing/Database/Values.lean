import Mathlib.Data.Nat.Digits.Defs
import Mathlib.Data.List.DropRight
import Mathlib.Tactic

/-! The PostgreSQL values and casts that the queries use. Text is a string of
single-byte characters, so `text` and `bytea` are both byte strings and only the
casts between them differ. -/

namespace FileSharing

abbrev Bytea := List UInt8
abbrev Text := List UInt8

/-- Bytes form a finite type, so without this a check of every byte of a text may run over all
256 bytes instead. -/
instance (priority := high) (t : Text) (good : UInt8 → Prop) [DecidablePred good] :
    Decidable (∀ c ∈ t, good c) :=
  List.decidableBAll good t

instance (priority := high) (t : Text) (texts : List Text) : Decidable (t ∈ texts) :=
  inferInstance

def ascii (s : String) : Text := s.toList.map fun c => UInt8.ofNat c.toNat

inductive SqlError where
  | invalidBytea
  | invalidInteger
  | invalidUuid
  | outOfRange
  | divisionByZero
  | cardinality
  | uniqueViolation
  | foreignKeyViolation
  | notNullViolation
  | tooLarge
  deriving DecidableEq, Repr

abbrev Sql := Except SqlError

def substr (data : Bytea) (start count : Nat) : Bytea := (data.drop (start - 1)).take count

/-- `lpad(t, n, ' ')`: pads on the left, and cuts on the right what is longer. -/
def lpad (t : Text) (n : Nat) : Text :=
  if n ≤ t.length then t.take n else List.replicate (n - t.length) 32 ++ t

def rtrim (t : Text) : Text := t.rdropWhile (· == 32)

def btrim (t : Text) : Text := rtrim (t.dropWhile (· == 32))

def octalByte (c : UInt8) : Text := [92, 48 + c / 64, 48 + c / 8 % 8, 48 + c % 8]

def encodeByte (c : UInt8) : Text :=
  if c = 0 ∨ 128 ≤ c then octalByte c else if c = 92 then [92, 92] else [c]

/-- `encode(data, 'escape')`. -/
def encode (data : Bytea) : Text := data.flatMap encodeByte

def isOctal (c : UInt8) : Bool := 48 ≤ c && c ≤ 55

/-- The escape format of `byteain`. -/
def unescape : Text → Sql Bytea
  | [] => .ok []
  | c :: rest =>
      if c ≠ 92 then return c :: (← unescape rest) else
      match rest with
      | [] => .error .invalidBytea
      | d :: tail =>
          if d = 92 then return 92 :: (← unescape tail) else
          match tail with
          | e :: f :: tail =>
              if 48 ≤ d ∧ d ≤ 51 ∧ isOctal e ∧ isOctal f then
                return ((d - 48) * 64 + (e - 48) * 8 + (f - 48)) :: (← unescape tail)
              else .error .invalidBytea
          | _ => .error .invalidBytea

def isHexSpace (c : UInt8) : Bool := c == 32 || c == 9 || c == 10 || c == 13

def hexDigit (c : UInt8) : Option UInt8 :=
  if 48 ≤ c ∧ c ≤ 57 then some (c - 48)
  else if 97 ≤ c ∧ c ≤ 102 then some (c - 87)
  else if 65 ≤ c ∧ c ≤ 70 then some (c - 55)
  else none

def hexDecode : Text → Sql Bytea
  | [] => .ok []
  | c :: rest =>
      if isHexSpace c then hexDecode rest else
      match rest with
      | [] => .error .invalidBytea
      | d :: tail =>
          match hexDigit c, hexDigit d with
          | some high, some low => return (high * 16 + low) :: (← hexDecode tail)
          | _, _ => .error .invalidBytea

/-- `t::bytea`. A backslash starts an escape and a leading `\x` the hex format. -/
def byteain (t : Text) : Sql Bytea :=
  if t.take 2 = [92, 120] then hexDecode (t.drop 2) else unescape t

def isSpace (c : UInt8) : Bool := c == 32 || (9 ≤ c && c ≤ 13)

def isDigit (c : UInt8) : Bool := 48 ≤ c && c ≤ 57

def digitsValue (t : Text) : Nat := t.foldl (fun v c => v * 10 + (c.toNat - 48)) 0

def unsignedIn (negative : Bool) (t : Text) : Option Int :=
  let digits := t.takeWhile isDigit
  if digits ≠ [] ∧ (t.dropWhile isDigit).all isSpace then
    some (if negative then -digitsValue digits else digitsValue digits)
  else none

/-- The decimal integer inputs: blanks, a sign, digits, blanks. -/
def integerIn (t : Text) : Option Int :=
  match t.dropWhile isSpace with
  | [] => none
  | c :: rest =>
      if c = 45 then unsignedIn true rest
      else if c = 43 then unsignedIn false rest
      else unsignedIn false (c :: rest)

def int4Min : Int := -2 ^ 31
def int4Max : Int := 2 ^ 31 - 1

def int4 (n : Int) : Sql Int :=
  if int4Min ≤ n ∧ n ≤ int4Max then .ok n else .error .outOfRange

def int8 (n : Int) : Sql Int :=
  if -2 ^ 63 ≤ n ∧ n ≤ 2 ^ 63 - 1 then .ok n else .error .outOfRange

/-- `t::INTEGER`. -/
def int4in (t : Text) : Sql Int :=
  match integerIn t with
  | none => .error .invalidInteger
  | some n => int4 n

/-- `t::BIGINT`. -/
def int8in (t : Text) : Sql Int :=
  match integerIn t with
  | none => .error .invalidInteger
  | some n => int8 n

def natText (n : Nat) : Text :=
  if n = 0 then [48] else (Nat.digits 10 n).reverse.map fun d => UInt8.ofNat (48 + d)

/-- `n::text`. -/
def intText (n : Int) : Text := if n < 0 then 45 :: natText n.natAbs else natText n.natAbs

example : int4in (lpad (intText (-21)) 11) = .ok (-21) := by decide

/-- Bytes that the casts between `text` and `bytea` leave as they are: ASCII and no backslash. -/
def clean (c : UInt8) : Bool := c != 0 && c < 128 && c != 92

def Clean (t : Text) : Prop := ∀ c ∈ t, clean c = true

instance (t : Text) : Decidable (Clean t) := inferInstanceAs (Decidable (∀ c ∈ t, clean c = true))

/-- Bytes that every text format writes as themselves: printable and no backslash. -/
def plain (c : UInt8) : Bool := 32 ≤ c && c < 127 && c != 92

def Plain (t : Text) : Prop := ∀ c ∈ t, plain c = true

instance (t : Text) : Decidable (Plain t) := inferInstanceAs (Decidable (∀ c ∈ t, plain c = true))

theorem Plain.clean {t : Text} (ht : Plain t) : Clean t := by
  intro c member
  have known := ht c member
  simp only [plain, Bool.and_eq_true, decide_eq_true_eq] at known
  simp only [FileSharing.clean, Bool.and_eq_true, decide_eq_true_eq, bne_iff_ne]
  refine ⟨⟨?_, UInt8.lt_trans known.1.2 (by decide)⟩, by simpa using known.2⟩
  rintro rfl
  exact absurd known.1.1 (by decide)

theorem clean_spaces (n : Nat) : Clean (List.replicate n 32) := by
  intro c member
  rw [List.eq_of_mem_replicate member]
  decide

theorem Clean.append {a b : Text} (ha : Clean a) (hb : Clean b) : Clean (a ++ b) := by
  intro c member
  rcases List.mem_append.mp member with left | right
  · exact ha c left
  · exact hb c right

theorem Clean.lpad {t : Text} (ht : Clean t) (n : Nat) : Clean (lpad t n) := by
  unfold FileSharing.lpad
  split
  · exact fun c member => ht c (List.mem_of_mem_take member)
  · exact (clean_spaces _).append ht

theorem Clean.of_lpad {t : Text} {n : Nat} (short : t.length ≤ n) (ht : Clean (FileSharing.lpad t n)) :
    Clean t := by
  unfold FileSharing.lpad at ht
  split at ht
  · rwa [List.take_of_length_le short] at ht
  · exact fun c member => ht c (List.mem_append_right _ member)

theorem Plain.append {a b : Text} (ha : Plain a) (hb : Plain b) : Plain (a ++ b) := by
  intro c member
  rcases List.mem_append.mp member with left | right
  · exact ha c left
  · exact hb c right

theorem Plain.take {t : Text} (ht : Plain t) (n : Nat) : Plain (t.take n) :=
  fun c member => ht c (List.mem_of_mem_take member)

theorem Plain.drop {t : Text} (ht : Plain t) (n : Nat) : Plain (t.drop n) :=
  fun c member => ht c (List.mem_of_mem_drop member)

theorem plain_spaces (n : Nat) : Plain (List.replicate n 32) := by
  intro c member
  rw [List.eq_of_mem_replicate member]
  decide

theorem Plain.lpad {t : Text} (ht : Plain t) (n : Nat) : Plain (lpad t n) := by
  unfold FileSharing.lpad
  split
  · exact ht.take n
  · exact (plain_spaces _).append ht

theorem Plain.btrim {t : Text} (ht : Plain t) : Plain (btrim t) := by
  intro c member
  apply ht
  have inner : c ∈ t.dropWhile (· == 32) :=
    (List.rdropWhile_prefix _ _).subset member
  exact (List.dropWhile_sublist _).subset inner

@[simp] theorem length_lpad (t : Text) (n : Nat) : (lpad t n).length = n := by
  unfold lpad
  split <;> simp <;> omega

theorem lpad_of_length {t : Text} {n : Nat} (exact : t.length = n) : lpad t n = t := by
  subst exact
  simp [lpad]

theorem encodeByte_clean {c : UInt8} (h : clean c = true) : encodeByte c = [c] := by
  simp only [clean, Bool.and_eq_true, decide_eq_true_eq, bne_iff_ne] at h
  have ascii : ¬ 128 ≤ c := UInt8.not_le.mpr h.1.2
  simp [encodeByte, h.1.1, ascii, h.2]

theorem encode_clean {t : Text} (ht : Clean t) : encode t = t := by
  induction t with
  | nil => rfl
  | cons c rest ih =>
      have tail : Clean rest := fun d member => ht d (List.mem_cons_of_mem c member)
      have head := encodeByte_clean (ht c List.mem_cons_self)
      simp only [encode, List.flatMap_cons, head] at ih ⊢
      rw [ih tail, List.singleton_append]

theorem encode_plain {t : Text} (ht : Plain t) : encode t = t := encode_clean ht.clean

theorem length_encodeByte (c : UInt8) : 1 ≤ (encodeByte c).length ∧
    ((encodeByte c).length ≤ 1 → clean c = true) := by
  unfold encodeByte
  split
  · simp [octalByte]
  · next low =>
      split
      · simp
      · next other =>
          rw [not_or, UInt8.not_le] at low
          simp [clean, low, other]

theorem length_le_encode (data : Bytea) : data.length ≤ (encode data).length := by
  induction data with
  | nil => exact Nat.le_refl 0
  | cons c rest ih =>
      have head := (length_encodeByte c).1
      rw [encode, List.flatMap_cons, List.length_append, ← encode, List.length_cons]
      omega

theorem clean_of_encode {data : Bytea} (short : (encode data).length ≤ data.length) :
    Clean data := by
  induction data with
  | nil => simp [Clean]
  | cons c rest ih =>
      obtain ⟨one, only⟩ := length_encodeByte c
      have tail := length_le_encode rest
      rw [encode, List.flatMap_cons, List.length_append, ← encode, List.length_cons] at short
      intro d member
      rcases List.mem_cons.mp member with rfl | later
      · exact only (by omega)
      · exact ih (by omega) d later

theorem unescape_cons {c : UInt8} (other : c ≠ 92) (rest : Text) :
    unescape (c :: rest) = (do return c :: (← unescape rest)) := by
  conv_lhs => unfold unescape
  rw [if_pos other]

theorem unescape_free {t : Text} (free : 92 ∉ t) : unescape t = .ok t := by
  induction t with
  | nil => rfl
  | cons c rest ih =>
      simp only [List.mem_cons, not_or] at free
      rw [unescape_cons (Ne.symm free.1), ih free.2]
      rfl

theorem byteain_free {t : Text} (free : 92 ∉ t) : byteain t = .ok t := by
  have escape : t.take 2 ≠ [92, 120] := by
    intro start
    apply free
    apply List.mem_of_mem_take (i := 2)
    simp [start]
  rw [byteain, if_neg escape, unescape_free free]

theorem byteain_clean {t : Text} (ht : Clean t) : byteain t = .ok t :=
  byteain_free fun backslash => absurd (ht 92 backslash) (by decide)

theorem byteain_plain {t : Text} (ht : Plain t) : byteain t = .ok t := byteain_clean ht.clean

theorem digit_toNat {d : Nat} (small : d < 10) : (UInt8.ofNat (48 + d)).toNat = 48 + d := by
  rw [UInt8.toNat_ofNat']
  omega

theorem isDigit_digit {d : Nat} (small : d < 10) : isDigit (UInt8.ofNat (48 + d)) = true := by
  simp only [isDigit, Bool.and_eq_true, decide_eq_true_eq, UInt8.le_iff_toNat_le, digit_toNat small]
  exact ⟨by simp, by simp; omega⟩

theorem digitsValue_digits (digits : List Nat) (small : ∀ d ∈ digits, d < 10) :
    digitsValue (digits.reverse.map fun d => UInt8.ofNat (48 + d)) = Nat.ofDigits 10 digits := by
  induction digits with
  | nil => rfl
  | cons d rest ih =>
      have tail := ih fun e member => small e (List.mem_cons_of_mem d member)
      have head := digit_toNat (small d List.mem_cons_self)
      rw [List.reverse_cons, List.map_append, digitsValue, List.foldl_append, ← digitsValue, tail]
      simp only [List.map_cons, List.map_nil, List.foldl_cons, List.foldl_nil, head,
        Nat.ofDigits_cons]
      omega

theorem digitsValue_natText (n : Nat) : digitsValue (natText n) = n := by
  unfold natText
  split
  · next zero => subst zero; rfl
  · rw [digitsValue_digits _ fun d member => Nat.digits_lt_base (by decide) member,
      Nat.ofDigits_digits]

theorem natText_digits (n : Nat) : ∀ c ∈ natText n, isDigit c = true := by
  intro c member
  unfold natText at member
  split at member
  · rw [List.mem_singleton.mp member]; decide
  · obtain ⟨d, inside, rfl⟩ := List.mem_map.mp member
    exact isDigit_digit (Nat.digits_lt_base (by decide) (List.mem_reverse.mp inside))

theorem natText_ne_nil (n : Nat) : natText n ≠ [] := by
  unfold natText
  split
  · simp
  · next nonzero => simpa [Nat.digits_eq_nil_iff_eq_zero] using nonzero

theorem isDigit_plain {c : UInt8} (digit : isDigit c = true) : plain c = true := by
  simp only [isDigit, Bool.and_eq_true, decide_eq_true_eq] at digit
  simp only [plain, Bool.and_eq_true, decide_eq_true_eq, bne_iff_ne]
  refine ⟨⟨UInt8.le_trans (by decide) digit.1, UInt8.lt_of_le_of_lt digit.2 (by decide)⟩, ?_⟩
  rintro rfl
  exact absurd digit.2 (by decide)

theorem plain_intText (n : Int) : Plain (intText n) := by
  have digits (m : Nat) : Plain (natText m) :=
    fun c member => isDigit_plain (natText_digits m c member)
  unfold intText
  split
  · intro c member
    rcases List.mem_cons.mp member with rfl | rest
    · decide
    · exact digits _ c rest
  · exact digits _

theorem unsignedIn_natText (negative : Bool) (n : Nat) :
    unsignedIn negative (natText n) = some (if negative then -(n : Int) else n) := by
  have all : ∀ c ∈ natText n, isDigit c = true := natText_digits n
  have taken : (natText n).takeWhile isDigit = natText n := List.takeWhile_eq_self_iff.mpr all
  have dropped : (natText n).dropWhile isDigit = [] := List.dropWhile_eq_nil_iff.mpr all
  simp [unsignedIn, taken, dropped, natText_ne_nil, digitsValue_natText]

theorem isSpace_digit {c : UInt8} (digit : isDigit c = true) :
    isSpace c = false ∧ c ≠ 45 ∧ c ≠ 43 := by
  simp only [isDigit, Bool.and_eq_true, decide_eq_true_eq] at digit
  refine ⟨?_, ?_, ?_⟩
  · simp only [isSpace, Bool.or_eq_false_iff, beq_eq_false_iff_ne, Bool.and_eq_false_iff,
      decide_eq_false_iff_not]
    refine ⟨?_, .inr fun low => absurd (UInt8.le_trans digit.1 low) (by decide)⟩
    rintro rfl
    exact absurd digit.1 (by decide)
  · rintro rfl; exact absurd digit.1 (by decide)
  · rintro rfl; exact absurd digit.1 (by decide)

theorem dropWhile_spaces (n : Nat) (t : Text) :
    (List.replicate n 32 ++ t).dropWhile isSpace = t.dropWhile isSpace := by
  induction n with
  | zero => rfl
  | succ n ih => rw [List.replicate_succ, List.cons_append, List.dropWhile_cons_of_pos (by decide), ih]

theorem integerIn_intText (n : Int) (blanks : Nat) :
    integerIn (List.replicate blanks 32 ++ intText n) = some n := by
  unfold integerIn
  rw [dropWhile_spaces]
  by_cases negative : n < 0
  · have minus : isSpace 45 = false := by decide
    simp only [intText, if_pos negative, List.dropWhile_cons, minus, Bool.false_eq_true, if_false,
      if_true, unsignedIn_natText]
    congr 1
    omega
  · simp only [intText, if_neg negative]
    cases shape : natText n.natAbs with
    | nil => exact absurd shape (natText_ne_nil _)
    | cons c rest =>
        have digit : isDigit c = true := natText_digits n.natAbs c (by simp [shape])
        obtain ⟨space, minus, plus⟩ := isSpace_digit digit
        rw [List.dropWhile_cons_of_neg (by simp [space])]
        simp only [if_neg minus, if_neg plus]
        rw [← shape, unsignedIn_natText]
        simp only [Bool.false_eq_true, if_false]
        congr 1
        omega

theorem integerIn_lpad {n : Int} {width : Nat} (fits : (intText n).length ≤ width) :
    integerIn (lpad (intText n) width) = some n := by
  unfold lpad
  split
  · next cut =>
      have whole := integerIn_intText n 0
      rwa [List.take_of_length_le (by omega)]
  · exact integerIn_intText n _

theorem int4in_lpad {n : Int} {width : Nat} (fits : (intText n).length ≤ width)
    (low : int4Min ≤ n) (high : n ≤ int4Max) : int4in (lpad (intText n) width) = .ok n := by
  simp [int4in, integerIn_lpad fits, int4, low, high]

theorem int8in_lpad {n : Int} {width : Nat} (fits : (intText n).length ≤ width)
    (low : -2 ^ 63 ≤ n) (high : n ≤ 2 ^ 63 - 1) : int8in (lpad (intText n) width) = .ok n := by
  simp only [int8in, integerIn_lpad fits, int8, if_pos (And.intro low high)]

theorem length_natText_le {n width : Nat} (positive : 0 < width) (small : n < 10 ^ width) :
    (natText n).length ≤ width := by
  unfold natText
  split
  · simpa using Nat.succ_le_of_lt positive
  · simpa using (Nat.digits_length_le_iff (by decide) n).mpr small

theorem length_intText_le {n : Int} (low : int4Min ≤ n) (high : n < 10 ^ 11) :
    (intText n).length ≤ 11 := by
  unfold int4Min at low
  unfold intText
  split
  · have short : (natText n.natAbs).length ≤ 10 := length_natText_le (by decide) (by omega)
    rw [List.length_cons]
    omega
  · exact length_natText_le (by decide) (by omega)

end FileSharing
