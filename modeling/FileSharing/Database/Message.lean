import FileSharing.Database.Schema
import FileSharing.Library.Fallible

/-! The function `create_message` and the layout of what it builds. -/

namespace FileSharing

open Library

/-- `to_char(now(), 'YYYY-MM-DD HH24:MI:SS.US')`. -/
structure Timestamp where
  text : Text
  length : text.length = 26
  plain : Plain text

/-- What `now()` and `gen_random_uuid()` return in one transaction: the second is the
UUID that row `i` of the insert number `k` receives. -/
structure Env where
  now : Timestamp
  uuid : Nat → Nat → Uuid

def sampleEnv : Env where
  now := ⟨List.replicate 26 48, rfl, by decide⟩
  uuid := fun statement i => Uuid.ofNat (100 * (statement + 1) + i)

def extraPad (length : Nat) : Option Int → Sql Nat
  | none => .ok 0
  | some maxCapacity => do
      let room ← int4 (maxCapacity - 32)
      let sizeDifference ← int4 (room - length)
      return sizeDifference.toNat

def sealMessage (hnmessage : Bytea) : Sql Bytea :=
  if 32 + hnmessage.length ≤ maxField then .ok (md5 hnmessage ++ hnmessage) else .error .tooLarge

def createMessage (now : Timestamp) (uuidData : Bytea) (messageType : Text)
    (subheader messaget : Bytea) (messageSource messageDestination messagePriority : Text)
    (maxCapacity : Option Int) : Sql Bytea := do
  let fixedType ← byteain (lpad messageType 5)
  let fixedSource ← byteain (lpad messageSource 5)
  let fixedDestination ← byteain (lpad messageDestination 5)
  let fixedPriority ← byteain (lpad messagePriority 5)
  let hnmessage := uuidData ++ fixedType ++ fixedSource ++ fixedDestination ++ fixedPriority ++
    now.text ++ subheader ++ messaget
  let sizeDifference ← extraPad hnmessage.length maxCapacity
  sealMessage (hnmessage ++ List.replicate sizeDifference 32)

/-- The fields that the queries read back from `jobdata`. -/
def messageType (data : Bytea) : Text := encode (substr data 69 5)
def messageSource (data : Bytea) : Text := encode (substr data 74 5)
def messageDestination (data : Bytea) : Text := encode (substr data 79 5)

theorem substr_append_left {a b : Bytea} {start count : Nat}
    (inside : start - 1 + count ≤ a.length) :
    substr (a ++ b) start count = substr a start count := by
  unfold substr
  rw [List.drop_append_of_le_length (by omega), List.take_append_of_le_length]
  rw [List.length_drop]
  omega

theorem substr_append_right {a b : Bytea} {start count : Nat} (beyond : a.length < start) :
    substr (a ++ b) start count = substr b (start - a.length) count := by
  unfold substr
  rw [List.drop_append, List.drop_eq_nil_of_le (by omega), List.nil_append]
  congr 2
  omega

theorem substr_whole {a : Bytea} {count : Nat} (exact : a.length = count) :
    substr a 1 count = a := by
  subst exact
  simp [substr]

theorem substr_exact {a b : Bytea} {count : Nat} (exact : a.length = count) :
    substr (a ++ b) 1 count = a := by
  rw [substr_append_left (by omega), substr_whole exact]

theorem sealMessage_ok {body message : Bytea} (done : sealMessage body = .ok message) :
    message = md5 body ++ body ∧ 32 + body.length ≤ maxField := by
  unfold sealMessage at done
  split at done
  · next fits => exact ⟨(Except.ok.inj done).symm, fits⟩
  · cases done

theorem int4_ok {n m : Int} (done : int4 n = .ok m) : m = n ∧ int4Min ≤ n ∧ n ≤ int4Max := by
  unfold int4 at done
  split at done
  · next range => exact ⟨(Except.ok.inj done).symm, range⟩
  · cases done

theorem extraPad_ok {length pad : Nat} {capacity : Int}
    (done : extraPad length (some capacity) = .ok pad) : pad = (capacity - 32 - length).toNat := by
  simp only [extraPad, bind_ok, pure_ok] at done
  obtain ⟨room, first, size, second, rfl⟩ := done
  rw [(int4_ok second).1, (int4_ok first).1]

/-- The bytes of a message after its hash. -/
def messageBody (uuidData fixedType fixedSource fixedDestination fixedPriority time
    content : Bytea) : Bytea :=
  uuidData ++ (fixedType ++ (fixedSource ++ (fixedDestination ++ (fixedPriority ++
    (time ++ content)))))

theorem createMessage_ok {now : Timestamp} {uuidData : Bytea} {type : Text}
    {subheader messaget : Bytea} {source destination priority : Text} {capacity : Option Int}
    {message : Bytea}
    (done : createMessage now uuidData type subheader messaget source destination priority
      capacity = .ok message) :
    ∃ fixedType fixedSource fixedDestination fixedPriority pad,
      byteain (lpad type 5) = .ok fixedType ∧ byteain (lpad source 5) = .ok fixedSource ∧
      byteain (lpad destination 5) = .ok fixedDestination ∧
      byteain (lpad priority 5) = .ok fixedPriority ∧
      extraPad (messageBody uuidData fixedType fixedSource fixedDestination fixedPriority now.text
        (subheader ++ messaget)).length capacity = .ok pad ∧
      sealMessage (messageBody uuidData fixedType fixedSource fixedDestination fixedPriority
        now.text (subheader ++ messaget ++ List.replicate pad 32)) = .ok message := by
  simp only [createMessage, bind_ok] at done
  obtain ⟨ty, hty, src, hsrc, dst, hdst, prio, hprio, pad, hpad, last⟩ := done
  refine ⟨ty, src, dst, prio, pad, hty, hsrc, hdst, hprio, ?_, ?_⟩
  · simpa only [messageBody, List.append_assoc] using hpad
  · simpa only [messageBody, List.append_assoc] using last

theorem createMessage_of_parts {now : Timestamp} {uuidData : Bytea} {type : Text}
    {subheader messaget : Bytea} {source destination priority : Text} {capacity : Option Int}
    {fixedType fixedSource fixedDestination fixedPriority : Bytea} {pad : Nat}
    (hty : byteain (lpad type 5) = .ok fixedType) (hsrc : byteain (lpad source 5) = .ok fixedSource)
    (hdst : byteain (lpad destination 5) = .ok fixedDestination)
    (hprio : byteain (lpad priority 5) = .ok fixedPriority)
    (hpad : extraPad (messageBody uuidData fixedType fixedSource fixedDestination fixedPriority
      now.text (subheader ++ messaget)).length capacity = .ok pad) :
    createMessage now uuidData type subheader messaget source destination priority capacity =
      sealMessage (messageBody uuidData fixedType fixedSource fixedDestination fixedPriority
        now.text (subheader ++ messaget ++ List.replicate pad 32)) := by
  simp only [messageBody, ← List.append_assoc] at hpad ⊢
  simp only [createMessage, hty, hsrc, hdst, hprio, bind, Except.bind, hpad]

section Layout

variable {uuidData fixedType fixedSource fixedDestination fixedPriority time content hash : Bytea}

theorem layout_uuid (hashed : hash.length = 32) (uuid : uuidData.length = 36) :
    substr (hash ++ messageBody uuidData fixedType fixedSource fixedDestination fixedPriority time
      content) 33 36 = uuidData := by
  rw [substr_append_right (by omega), hashed]
  exact substr_exact uuid

theorem layout_type (hashed : hash.length = 32) (uuid : uuidData.length = 36)
    (type : fixedType.length = 5) :
    substr (hash ++ messageBody uuidData fixedType fixedSource fixedDestination fixedPriority time
      content) 69 5 = fixedType := by
  rw [substr_append_right (by omega), hashed, messageBody, substr_append_right (by omega), uuid]
  exact substr_exact type

theorem layout_source (hashed : hash.length = 32) (uuid : uuidData.length = 36)
    (type : fixedType.length = 5) (source : fixedSource.length = 5) :
    substr (hash ++ messageBody uuidData fixedType fixedSource fixedDestination fixedPriority time
      content) 74 5 = fixedSource := by
  rw [substr_append_right (by omega), hashed, messageBody, substr_append_right (by omega), uuid,
    substr_append_right (by omega), type]
  exact substr_exact source

theorem layout_destination (hashed : hash.length = 32) (uuid : uuidData.length = 36)
    (type : fixedType.length = 5) (source : fixedSource.length = 5)
    (destination : fixedDestination.length = 5) :
    substr (hash ++ messageBody uuidData fixedType fixedSource fixedDestination fixedPriority time
      content) 79 5 = fixedDestination := by
  rw [substr_append_right (by omega), hashed, messageBody, substr_append_right (by omega), uuid,
    substr_append_right (by omega), type, substr_append_right (by omega), source]
  exact substr_exact destination

theorem layout_content (hashed : hash.length = 32) (uuid : uuidData.length = 36)
    (type : fixedType.length = 5) (source : fixedSource.length = 5)
    (destination : fixedDestination.length = 5) (priority : fixedPriority.length = 5)
    (stamp : time.length = 26) (start count : Nat) (beyond : 114 < start) :
    substr (hash ++ messageBody uuidData fixedType fixedSource fixedDestination fixedPriority time
      content) start count = substr content (start - 114) count := by
  rw [substr_append_right (by omega), hashed, messageBody, substr_append_right (by omega), uuid,
    substr_append_right (by omega), type, substr_append_right (by omega), source,
    substr_append_right (by omega), destination, substr_append_right (by omega), priority,
    substr_append_right (by omega), stamp, show start - 32 - 36 - 5 - 5 - 5 - 5 - 26 = start - 114
      by omega]

end Layout

section Read

variable {now : Timestamp} {id : Uuid} {type source destination priority : Text}
  {subheader messaget message : Bytea} {capacity : Option Int}

theorem messageUuid_createMessage
    (done : createMessage now id.text type subheader messaget source destination priority
      capacity = .ok message) : uuidIn (encode (substr message 33 36)) = .ok id := by
  obtain ⟨ty, src, dst, prio, pad, -, -, -, -, -, last⟩ := createMessage_ok done
  rw [(sealMessage_ok last).1, layout_uuid (length_md5 _) id.length, encode_plain (plain_uuid id),
    uuidIn_text]

theorem messageType_createMessage (plainType : Plain type)
    (done : createMessage now id.text type subheader messaget source destination priority
      capacity = .ok message) : messageType message = lpad type 5 := by
  obtain ⟨ty, src, dst, prio, pad, hty, -, -, -, -, last⟩ := createMessage_ok done
  obtain rfl := Except.ok.inj (hty.symm.trans (byteain_plain (plainType.lpad 5)))
  rw [(sealMessage_ok last).1, messageType, layout_type (length_md5 _) id.length (length_lpad _ _),
    encode_plain (plainType.lpad 5)]

def FiveBytes (t : Text) : Prop := ∀ field, byteain (lpad t 5) = .ok field → field.length = 5

theorem content_createMessage (plainType : Plain type) (hsrc : FiveBytes source)
    (hdst : FiveBytes destination) (hprio : FiveBytes priority)
    (done : createMessage now id.text type subheader messaget source destination priority
      capacity = .ok message) (start count : Nat) (beyond : 114 < start)
    (inside : start - 115 + count ≤ subheader.length) :
    substr message start count = substr subheader (start - 114) count := by
  obtain ⟨ty, src, dst, prio, pad, hty, hs, hd, hp, -, last⟩ := createMessage_ok done
  obtain rfl := Except.ok.inj (hty.symm.trans (byteain_plain (plainType.lpad 5)))
  rw [(sealMessage_ok last).1, layout_content (length_md5 _) id.length (length_lpad _ _)
    (hsrc src hs) (hdst dst hd) (hprio prio hp) now.length start count beyond, List.append_assoc]
  exact substr_append_left (by omega)

end Read

end FileSharing
