import FileSharing.Database.Consensus

/-! What the peer reads from the bytes of a consensus message: the statements about type 4
and about type 5 have their own casts. -/

namespace FileSharing

open Library RunJobs

namespace ReadBack

/-- `initial_receiver` stores `strlen(data)` bytes. -/
def stored (data : Bytea) : Bytea := data.takeWhile (· ≠ 0)

/-- The fields that `cte_sysinfo` reads from a message of type 5. -/
def replyOf (job : Job) : Sql Request := do
  let sourceIp ← int8in (addressField job.jobdata)
  let rcapacity ← capacityField job.jobdata
  let rport ← portField job.jobdata
  return ⟨rcapacity, rport, sourceIp, messageSource job.jobdata⟩

theorem cteRow_reply {db : Db} {job : Job} {reply : Request} (read : replyOf job = .ok reply) :
    cteRow db job = .ok ((db.sysinfo.filter fun si =>
      reply.sourceName = si.systemName && reply.sourceIp = si.ipaddress).map fun _ =>
        (reply.rcapacity, reply.rport)) := by
  simp only [replyOf, bind_ok, pure_ok] at read
  obtain ⟨address, hip, capacity, hcap, port, hport, rfl⟩ := read
  simp only [cteRow, hip, bind, Except.bind]
  apply mapM_ok.mpr
  rw [List.forall₂_map_right_iff, List.forall₂_same]
  intro si _
  simp only [hcap, hport, pure, Except.pure]

def parsed (type : Text) (job : Job) : Sql Request :=
  if type = ascii "4" then requestOf job else replyOf job

/-- The stored bytes have the length that both programs expect, and every field in them is
the value the message was built from; a name is its field of five characters. -/
structure ReadsBack (type : Text) (capacity : Int) (own : SelfInfo) (destination : Text)
    (job : Job) : Prop where
  length : job.jobdata.length = 147
  hash : hashMatches (stored job.jobdata) = true
  typed : messageType (stored job.jobdata) = lpad type 5
  bound : messageDestination (stored job.jobdata) = lpad destination 5
  fields : parsed type { job with jobdata := stored job.jobdata } =
    .ok ⟨capacity, own.dataport, own.ipaddress, lpad own.systemName 5⟩

section Clean

theorem stored_clean {data : Bytea} (clean : Clean data) : stored data = data := by
  apply List.takeWhile_eq_self_iff.mpr
  intro c member
  have known := clean c member
  simp only [FileSharing.clean, Bool.and_eq_true, bne_iff_ne] at known
  simpa using known.1.1

theorem int4in_range {t : Text} {n : Int} (done : int4in t = .ok n) : IsInt4 n := by
  unfold int4in at done
  split at done
  · cases done
  · obtain ⟨rfl, range⟩ := int4_ok done
    exact range

theorem length_of_capacity {data : Bytea} {n : Int} (done : capacityField data = .ok n) :
    115 ≤ data.length := by
  by_contra short
  have empty : substr data 115 11 = [] := by
    rw [substr, List.drop_eq_nil_of_le (by omega), List.take_nil]
  rw [capacityField, empty] at done
  cases done

theorem clean_of_field {data : Bytea} {name : Text} {start : Nat} (short : name.length ≤ 5)
    (inside : start - 1 + 5 ≤ data.length)
    (read : encode (substr data start 5) = lpad name 5) : Clean name := by
  have window : (substr data start 5).length = 5 := by
    rw [substr, List.length_take, List.length_drop]
    omega
  have clean : Clean (substr data start 5) := by
    apply clean_of_encode
    rw [read, length_lpad, window]
  rw [encode_clean clean] at read
  exact Clean.of_lpad short (read ▸ clean)

end Clean

section Iff

variable {env : Env} {id parent : Uuid} {type destination : Text} {capacity : Int} {own : SelfInfo}

theorem readsBack_clean (kind : type = ascii "4" ∨ type = ascii "5") (range : IsInt4 capacity)
    (port : IsInt4 own.dataport) (address : 0 ≤ own.ipaddress ∧ own.ipaddress < 2 ^ 32)
    (cleanOwn : Clean own.systemName) (cleanDestination : Clean destination)
    (fits : type = ascii "4" → own.ipaddress < 2 ^ 31) :
    ∃ job, consensusJob env id type capacity own destination parent = .ok job ∧
      ReadsBack type capacity own destination job := by
  have cleanType : Clean type := by
    rcases kind with rfl | rfl <;> decide
  have whole := stored_clean
    (clean_consensusMessage env id capacity cleanType cleanOwn cleanDestination)
  have carries := carries_consensusBody env id capacity cleanType cleanOwn cleanDestination
  refine ⟨_, consensusJob_eq cleanType cleanOwn cleanDestination, ?_⟩
  constructor
  · rw [List.length_append, length_md5, length_consensusBody]
  · rw [whole]
    exact carries.hash
  · rw [whole]
    exact carries.type
  · rw [whole]
    exact carries.destination
  · have source := carries.source
    have hcap := carries.capacityField range
    have hport := carries.portField port
    rw [parsed]
    split
    · next four =>
        have hip : int4in (addressField _) = .ok own.ipaddress :=
          (congrArg int4in carries.address).trans (int4in_field ⟨by unfold int4Min; omega, by
            have := fits four
            unfold int4Max
            omega⟩)
        simp only [requestOf, whole, hcap, hport, hip, source, bind, Except.bind, pure, Except.pure]
    · have narrow : (intText own.ipaddress).length ≤ 11 :=
        length_intText_le (by unfold int4Min; omega) (by omega)
      have hip : int8in (addressField _) = .ok own.ipaddress :=
        (congrArg int8in carries.address).trans (int8in_lpad narrow (by omega) (by omega))
      simp only [replyOf, whole, hcap, hport, hip, source, bind, Except.bind, pure, Except.pure]

theorem parsed_fields {job : Job} {request : Request} (done : parsed type job = .ok request) :
    capacityField job.jobdata = .ok request.rcapacity ∧
      messageSource job.jobdata = request.sourceName ∧
      (type = ascii "4" → IsInt4 request.sourceIp) := by
  unfold parsed at done
  split at done
  · simp only [requestOf, bind_ok, pure_ok] at done
    obtain ⟨capacity, hcap, port, -, address, hip, rfl⟩ := done
    exact ⟨hcap, rfl, fun _ => int4in_range hip⟩
  · next other =>
      simp only [replyOf, bind_ok, pure_ok] at done
      obtain ⟨address, -, capacity, hcap, port, -, rfl⟩ := done
      exact ⟨hcap, rfl, fun four => absurd four other⟩

/-- The message that `run_jobs` builds is read back by the peer exactly if both names are
ASCII without a backslash and, in a request, the address is below 2 ^ 31. -/
theorem reads_back_iff (kind : type = ascii "4" ∨ type = ascii "5") (range : IsInt4 capacity)
    (port : IsInt4 own.dataport) (address : 0 ≤ own.ipaddress ∧ own.ipaddress < 2 ^ 32)
    (source : own.systemName.length ≤ 5) (target : destination.length ≤ 5) :
    (∃ job, consensusJob env id type capacity own destination parent = .ok job ∧
      ReadsBack type capacity own destination job) ↔
      Clean own.systemName ∧ Clean destination ∧
        (type = ascii "4" → own.ipaddress < 2 ^ 31) := by
  constructor
  · rintro ⟨job, -, back⟩
    obtain ⟨hcap, hsource, hip⟩ := parsed_fields back.fields
    have long : 115 ≤ (stored job.jobdata).length := length_of_capacity hcap
    refine ⟨?_, ?_, fun four => ?_⟩
    · have inside : 74 - 1 + 5 ≤ (stored job.jobdata).length := by omega
      exact clean_of_field source inside hsource
    · exact clean_of_field target (by omega) back.bound
    · have high : own.ipaddress ≤ int4Max := (hip four).2
      unfold int4Max at high
      omega
  · rintro ⟨cleanOwn, cleanDestination, fits⟩
    exact readsBack_clean kind range port address cleanOwn cleanDestination fits

def privateM3 : SelfInfo := ⟨ascii "   M3", 3232235777, 6001, 32768⟩

theorem reads_back_reply :
    ∃ job, consensusJob sampleEnv (Uuid.ofNat 7) (ascii "5") 1000 privateM3 (ascii "   M1")
      (Uuid.ofNat 0) = .ok job ∧ ReadsBack (ascii "5") 1000 privateM3 (ascii "   M1") job :=
  (reads_back_iff (.inr rfl) (by decide) (by decide) (by decide) (by decide) (by decide)).mpr
    ⟨by decide, by decide, by decide⟩

/-- Its request is built, and the peer cannot cast the address. -/
theorem private_request_unread :
    ∃ job, consensusJob sampleEnv (Uuid.ofNat 7) (ascii "4") 32768 privateM3 (ascii "   M1")
        (Uuid.ofNat 0) = .ok job ∧
      parsed (ascii "4") { job with jobdata := stored job.jobdata } = .error .outOfRange ∧
      ¬ ReadsBack (ascii "4") 32768 privateM3 (ascii "   M1") job := by
  obtain ⟨job, made⟩ : ∃ job, consensusJob sampleEnv (Uuid.ofNat 7) (ascii "4") 32768 privateM3
      (ascii "   M1") (Uuid.ofNat 0) = .ok job :=
    ⟨_, consensusJob_eq (by decide) (by decide) (by decide)⟩
  have fails : (consensusJob sampleEnv (Uuid.ofNat 7) (ascii "4") 32768 privateM3 (ascii "   M1")
      (Uuid.ofNat 0) >>= fun job => parsed (ascii "4")
        { job with jobdata := stored job.jobdata }) = .error .outOfRange := by
    decide +kernel
  rw [made] at fails
  have error : parsed (ascii "4") { job with jobdata := stored job.jobdata } =
      .error .outOfRange := fails
  refine ⟨job, made, error, fun back => ?_⟩
  have fields := back.fields
  rw [error] at fields
  cases fields

end Iff

end ReadBack

end FileSharing
