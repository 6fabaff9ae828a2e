import FileSharing.Database.Casts
import FileSharing.Database.Message
import FileSharing.Library.Fields

/-! The messages of `create_message` as a list of fields. A backslash in a name or in the
priority makes its field shorter than five bytes, and all that follows it moves. -/

namespace FileSharing

open Library

theorem substr_field {fields : List Bytea} {i start count : Nat} {field : Bytea}
    (found : fields[i]? = some field) (place : fieldStart fields i + 1 = start)
    (width : field.length = count) : substr fields.flatten start count = field := by
  subst place width
  rw [substr, Nat.add_sub_cancel]
  exact take_field found

/-- The bytes that a field of five loses in its cast. -/
def castGap (t : Text) : Nat :=
  match byteain (lpad t 5) with
  | .ok field => 5 - field.length
  | .error _ => 0

theorem castGap_ok {t : Text} {field : Bytea} (done : byteain (lpad t 5) = .ok field) :
    field.length + castGap t = 5 := by
  have bound := (length_byteain done).1
  rw [length_lpad] at bound
  rw [castGap, done]
  exact Nat.add_sub_cancel' bound

theorem castGap_zero_iff {t : Text} {field : Bytea} (short : t.length ≤ 5)
    (done : byteain (lpad t 5) = .ok field) : castGap t = 0 ↔ 92 ∉ t := by
  have total := castGap_ok done
  have same : 92 ∈ lpad t 5 ↔ 92 ∈ t := by
    unfold lpad
    split
    · rw [List.take_of_length_le short]
    · simp
  rw [← same, ← byteain_exact_iff, length_lpad]
  constructor
  · intro none
    exact ⟨field, done, by omega⟩
  · rintro ⟨field', done', exact⟩
    obtain rfl := Except.ok.inj (done.symm.trans done')
    omega

/-- How far the content of a message begins before byte 115. -/
def headerGap (source destination priority : Text) : Nat :=
  castGap source + castGap destination + castGap priority

theorem headerGap_le (source destination priority : Text) :
    headerGap source destination priority ≤ 15 := by
  have each (t : Text) : castGap t ≤ 5 := by
    unfold castGap
    split <;> omega
  have src := each source
  have dst := each destination
  have prio := each priority
  unfold headerGap
  omega

def Job.gap (js : Job) : Nat := headerGap (btrim js.jsource) (btrim js.jdestination) js.jpriority

section Fields

variable {now : Timestamp} {id : Uuid} {type source destination priority : Text}
  {subheader messaget message : Bytea} {capacity : Int}

structure Header (now : Timestamp) (id : Uuid) (type source destination priority : Text) where
  hash : Bytea
  fixedSource : Bytea
  fixedDestination : Bytea
  fixedPriority : Bytea
  hashed : hash.length = 32
  castSource : byteain (lpad source 5) = .ok fixedSource
  castDestination : byteain (lpad destination 5) = .ok fixedDestination
  castPriority : byteain (lpad priority 5) = .ok fixedPriority

namespace Header

def fields (header : Header now id type source destination priority) : List Bytea :=
  [header.hash, id.text, lpad type 5, header.fixedSource, header.fixedDestination,
    header.fixedPriority, now.text]

theorem length (header : Header now id type source destination priority) :
    header.fields.flatten.length + headerGap source destination priority = 114 := by
  have src := castGap_ok header.castSource
  have dst := castGap_ok header.castDestination
  have prio := castGap_ok header.castPriority
  simp only [fields, headerGap, List.flatten_cons, List.flatten_nil, List.length_append,
    header.hashed, id.length, length_lpad, now.length, List.length_nil]
  omega

theorem content (header : Header now id type source destination priority)
    (exact : headerGap source destination priority = 0) (content : Bytea) {start count : Nat}
    (beyond : 114 < start) : substr (header.fields.flatten ++ content) start count =
      substr content (start - 114) count := by
  have length := header.length
  rw [substr_append_right (by omega), show header.fields.flatten.length = 114 by omega]

end Header

def padding (capacity : Int) (used : Nat) : Bytea := List.replicate (capacity - used).toNat 32

theorem createMessage_fields (cleanType : Clean type)
    (done : createMessage now id.text type subheader messaget source destination priority
      (some capacity) = .ok message) :
    ∃ header : Header now id type source destination priority,
      message = header.fields.flatten ++ (subheader ++ (messaget ++ padding capacity
        (header.fields.flatten.length + subheader.length + messaget.length))) ∧
      message.length ≤ maxField := by
  obtain ⟨ty, src, dst, prio, pad, hty, hsrc, hdst, hprio, room, last⟩ := createMessage_ok done
  obtain rfl := Except.ok.inj (hty.symm.trans (byteain_clean (cleanType.lpad 5)))
  obtain ⟨built, fits⟩ := sealMessage_ok last
  have count := extraPad_ok room
  refine ⟨⟨md5 (messageBody id.text (lpad type 5) src dst prio now.text (subheader ++ messaget ++
    List.replicate pad 32)), src, dst, prio, length_md5 _, hsrc, hdst, hprio⟩, ?_, ?_⟩
  · have filled : padding capacity (32 + (messageBody id.text (lpad type 5) src dst prio now.text
        (subheader ++ messaget)).length) = List.replicate pad 32 := by
      rw [count, padding]
      congr 1
      omega
    have used : ([md5 (messageBody id.text (lpad type 5) src dst prio now.text (subheader ++
        messaget ++ List.replicate pad 32)), id.text, lpad type 5, src, dst, prio,
        now.text].flatten).length + subheader.length + messaget.length =
        32 + (messageBody id.text (lpad type 5) src dst prio now.text
          (subheader ++ messaget)).length := by
      simp only [List.flatten_cons, List.flatten_nil, List.length_append, length_md5, messageBody,
        List.length_nil]
      omega
    rw [Header.fields, used, filled, built]
    simp only [messageBody, List.flatten_cons, List.flatten_nil, List.append_assoc,
      List.append_nil]
  · rw [built, List.length_append, length_md5]
    exact fits

theorem createMessage_total {fixedSource fixedDestination fixedPriority : Bytea}
    (cleanType : Clean type) (hsrc : byteain (lpad source 5) = .ok fixedSource)
    (hdst : byteain (lpad destination 5) = .ok fixedDestination)
    (hprio : byteain (lpad priority 5) = .ok fixedPriority)
    (fits : ((114 + subheader.length + messaget.length : Nat) : Int) ≤ capacity)
    (small : capacity ≤ maxField) :
    ∃ message, createMessage now id.text type subheader messaget source destination priority
      (some capacity) = .ok message := by
  have src := castGap_ok hsrc
  have dst := castGap_ok hdst
  have prio := castGap_ok hprio
  let used := (messageBody id.text (lpad type 5) fixedSource fixedDestination fixedPriority now.text
    (subheader ++ messaget)).length
  have bound : used ≤ 82 + subheader.length + messaget.length := by
    simp only [used, messageBody, List.length_append, id.length, length_lpad, now.length]
    omega
  unfold maxField at small
  have room : extraPad used (some capacity) = .ok (capacity - 32 - used).toNat := by
    have first : int4 (capacity - 32) = .ok (capacity - 32) :=
      if_pos ⟨by unfold int4Min; omega, by unfold int4Max; omega⟩
    have second : int4 (capacity - 32 - used) = .ok (capacity - 32 - used) :=
      if_pos ⟨by unfold int4Min; omega, by unfold int4Max; omega⟩
    simp only [extraPad, first, second, bind, Except.bind, pure, Except.pure]
  rw [createMessage_of_parts (byteain_clean (cleanType.lpad 5)) hsrc hdst hprio room]
  refine ⟨_, if_pos ?_⟩
  have length : (messageBody id.text (lpad type 5) fixedSource fixedDestination fixedPriority
      now.text (subheader ++ messaget ++ List.replicate (capacity - 32 - used).toNat 32)).length =
      used + (capacity - 32 - used).toNat := by
    simp only [used, messageBody, List.length_append, List.length_replicate]
    omega
  rw [length]
  unfold maxField
  omega

theorem length_message (header : Header now id type source destination priority)
    (fits : ((header.fields.flatten.length + subheader.length + messaget.length : Nat) : Int) ≤
      capacity) :
    ((header.fields.flatten ++ (subheader ++ (messaget ++ padding capacity
      (header.fields.flatten.length + subheader.length + messaget.length)))).length : Int) =
      capacity := by
  simp only [List.length_append, padding, List.length_replicate, Nat.cast_add] at fits ⊢
  omega

end Fields

end FileSharing
