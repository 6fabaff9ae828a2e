import FileSharing.Database.Evolution

/-! The consensus messages, types 4 and 5: 147 bytes that carry a capacity, a port and an
address. -/

namespace FileSharing

open Library RunJobs

structure Carries (data : Bytea) (type source destination : Text) (capacity port address : Int) :
    Prop where
  hash : hashMatches data = true
  type : messageType data = lpad type 5
  source : messageSource data = lpad source 5
  destination : messageDestination data = lpad destination 5
  capacity : encode (substr data 115 11) = lpad (intText capacity) 11
  port : encode (substr data 126 11) = lpad (intText port) 11
  address : addressField data = lpad (intText address) 11

def IsInt4 (n : Int) : Prop := int4Min ≤ n ∧ n ≤ int4Max

instance (n : Int) : Decidable (IsInt4 n) := inferInstanceAs (Decidable (_ ∧ _))

theorem int4in_field {n : Int} (range : IsInt4 n) : int4in (lpad (intText n) 11) = .ok n :=
  int4in_lpad (length_intText_le range.1 (lt_of_le_of_lt range.2 (by decide))) range.1 range.2

section Carries

variable {data : Bytea} {type source destination : Text} {capacity port address : Int}

theorem Carries.capacityField (carries : Carries data type source destination capacity port address)
    (range : IsInt4 capacity) : capacityField data = .ok capacity := by
  rw [RunJobs.capacityField, carries.capacity, int4in_field range]

theorem Carries.portField (carries : Carries data type source destination capacity port address)
    (range : IsInt4 port) : portField data = .ok port := by
  rw [RunJobs.portField, carries.port, int4in_field range]

end Carries

theorem hashMatches_sealed (body : Bytea) : hashMatches (md5 body ++ body) = true := by
  have front : substr (md5 body ++ body) 1 32 = md5 body := substr_exact (length_md5 body)
  have rest : (md5 body ++ body).drop 32 = body := by
    rw [← length_md5 body, List.drop_left]
  simp [hashMatches, front, rest, encode_plain (plain_md5 body)]

structure IsConsensus (job : Job) (id : Uuid) (type : Text) (capacity : Int) (own : SelfInfo)
    (destination : Text) (parent : Uuid) : Prop where
  jobid : job.jobid = id
  jstate : job.jstate = .S5
  jtype : job.jtype = type
  jsource : job.jsource = own.systemName
  jparentJobid : job.jparentJobid = parent
  jdestination : job.jdestination = destination
  length : job.jobdata.length = 147
  bytes : Plain job.jobdata
  carries : Carries job.jobdata type own.systemName destination capacity own.dataport own.ipaddress

theorem three_fields {a b c : Bytea} (ha : a.length = 11) (hb : b.length = 11)
    (hc : c.length = 11) : substr (a ++ b ++ c) 1 11 = a ∧ substr (a ++ b ++ c) 12 11 = b ∧
      substr (a ++ b ++ c) 23 11 = c := by
  rw [List.append_assoc]
  refine ⟨substr_exact ha, ?_, ?_⟩
  · rw [substr_append_right (by omega), ha]
    exact substr_exact hb
  · rw [substr_append_right (by omega), ha, substr_append_right (by omega), hb]
    exact substr_whole hc

section Build

variable {env : Env} {id parent : Uuid} {type destination : Text} {capacity : Int} {own : SelfInfo}

/-- The 115 bytes that a consensus message seals. -/
def consensusBody (env : Env) (id : Uuid) (type : Text) (capacity : Int) (own : SelfInfo)
    (destination : Text) : Bytea :=
  messageBody id.text (lpad type 5) (lpad own.systemName 5) (lpad destination 5)
    (lpad (ascii "5") 5) env.now.text (lpad (intText capacity) 11 ++
      lpad (intText own.dataport) 11 ++ lpad (intText own.ipaddress) 11)

theorem length_consensusBody (env : Env) (id : Uuid) (type : Text) (capacity : Int)
    (own : SelfInfo) (destination : Text) :
    (consensusBody env id type capacity own destination).length = 115 := by
  simp [consensusBody, messageBody, id.length, env.now.length]

theorem plain_field (n : Int) : Plain (lpad (intText n) 11) := (plain_intText n).lpad 11

theorem consensusJob_eq (cleanType : Clean type) (cleanOwn : Clean own.systemName)
    (cleanDestination : Clean destination) :
    consensusJob env id type capacity own destination parent = .ok {
      jobid := id
      jobdata := md5 (consensusBody env id type capacity own destination) ++
        consensusBody env id type capacity own destination
      jstate := .S5, jtype := type, jsource := own.systemName, jparentJobid := parent,
      jdestination := destination, jpriority := ascii "5" } := by
  have five : Clean (lpad (ascii "5") 5) := by decide
  have size := length_consensusBody env id type capacity own destination
  unfold consensusBody at size
  have room : extraPad (messageBody id.text (lpad type 5) (lpad own.systemName 5)
      (lpad destination 5) (lpad (ascii "5") 5) env.now.text (lpad (intText capacity) 11 ++
        lpad (intText own.dataport) 11 ++ lpad (intText own.ipaddress) 11 ++ [])).length
      (some 147) = .ok 0 := by
    rw [List.append_nil, size]
    decide
  rw [consensusJob, createMessage_of_parts (byteain_clean (cleanType.lpad 5))
    (byteain_clean (cleanOwn.lpad 5)) (byteain_clean (cleanDestination.lpad 5))
    (byteain_clean five) room]
  rw [List.append_nil, List.replicate_zero, List.append_nil, sealMessage, if_pos]
  · rfl
  · rw [size]
    decide

theorem carries_consensusBody (env : Env) (id : Uuid) (capacity : Int) (cleanType : Clean type)
    (cleanOwn : Clean own.systemName) (cleanDestination : Clean destination) :
    Carries (md5 (consensusBody env id type capacity own destination) ++
      consensusBody env id type capacity own destination) type own.systemName destination capacity
      own.dataport own.ipaddress := by
  have hashed := length_md5 (consensusBody env id type capacity own destination)
  unfold consensusBody at hashed ⊢
  obtain ⟨first, second, third⟩ := three_fields (length_lpad (intText capacity) 11)
    (length_lpad (intText own.dataport) 11) (length_lpad (intText own.ipaddress) 11)
  constructor
  · exact hashMatches_sealed _
  · rw [messageType, layout_type hashed id.length (length_lpad _ _),
      encode_clean (cleanType.lpad 5)]
  · rw [messageSource, layout_source hashed id.length (length_lpad _ _)
      (length_lpad _ _), encode_clean (cleanOwn.lpad 5)]
  · rw [messageDestination, layout_destination hashed id.length (length_lpad _ _)
      (length_lpad _ _) (length_lpad _ _), encode_clean (cleanDestination.lpad 5)]
  · rw [layout_content hashed id.length (length_lpad _ _) (length_lpad _ _)
      (length_lpad _ _) (length_lpad _ _) env.now.length _ _ (by decide)]
    exact (congrArg encode first).trans (encode_plain (plain_field _))
  · rw [layout_content hashed id.length (length_lpad _ _) (length_lpad _ _)
      (length_lpad _ _) (length_lpad _ _) env.now.length _ _ (by decide)]
    exact (congrArg encode second).trans (encode_plain (plain_field _))
  · rw [addressField, layout_content hashed id.length (length_lpad _ _)
      (length_lpad _ _) (length_lpad _ _) (length_lpad _ _) env.now.length _ _ (by decide)]
    exact (congrArg encode third).trans (encode_plain (plain_field _))

theorem clean_consensusMessage (env : Env) (id : Uuid) (capacity : Int) (cleanType : Clean type)
    (cleanOwn : Clean own.systemName) (cleanDestination : Clean destination) :
    Clean (md5 (consensusBody env id type capacity own destination) ++
      consensusBody env id type capacity own destination) := by
  have digits (n : Int) : Clean (lpad (intText n) 11) := (plain_field n).clean
  exact (plain_md5 _).clean.append ((plain_uuid id).clean.append ((cleanType.lpad 5).append
    ((cleanOwn.lpad 5).append ((cleanDestination.lpad 5).append ((by decide : Clean _).append
      (env.now.plain.clean.append (((digits _).append (digits _)).append (digits _))))))))

theorem consensusJob_total (plainType : Plain type) (plainOwn : Plain own.systemName)
    (plainDestination : Plain destination) :
    ∃ job, consensusJob env id type capacity own destination parent = .ok job ∧
      IsConsensus job id type capacity own destination parent := by
  refine ⟨_, consensusJob_eq plainType.clean plainOwn.clean plainDestination.clean, rfl, rfl, rfl,
    rfl, rfl, rfl, ?_, ?_,
    carries_consensusBody env id capacity plainType.clean plainOwn.clean plainDestination.clean⟩
  · rw [List.length_append, length_md5, length_consensusBody]
  · have digits (n : Int) : Plain (lpad (intText n) 11) := plain_field n
    exact (plain_md5 _).append ((plain_uuid id).append ((plainType.lpad 5).append
      ((plainOwn.lpad 5).append ((plainDestination.lpad 5).append ((by decide : Plain _).append
        (env.now.plain.append (((digits _).append (digits _)).append (digits _))))))))

theorem consensusJob_ok {job : Job} (plainType : Plain type) (plainOwn : Plain own.systemName)
    (plainDestination : Plain destination)
    (done : consensusJob env id type capacity own destination parent = .ok job) :
    IsConsensus job id type capacity own destination parent := by
  obtain ⟨made, same, is⟩ : ∃ made, consensusJob env id type capacity own destination parent =
      .ok made ∧ IsConsensus made id type capacity own destination parent :=
    consensusJob_total plainType plainOwn plainDestination
  obtain rfl := Except.ok.inj (same.symm.trans done)
  exact is

end Build

end FileSharing
