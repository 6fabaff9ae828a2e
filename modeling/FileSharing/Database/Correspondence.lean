import FileSharing.Database.Repetition
import FileSharing.Database.Requests
import FileSharing.Library.Pairing

/-! Requests for a consensus and their replies, over whole runs of the programs on one
database: each request that was taken has one reply, and each reply one request. -/

namespace FileSharing

open Library RunJobs Completion

namespace Correspondence

def isRequest (job : Job) : Bool := job.jstate = .N4 && job.jtype = typeField "4"

/-- A request of a peer that has left N-4. -/
def isTaken (job : Job) : Bool := job.jstate = .C && job.jtype = typeField "4"

/-- A reply of this system. What arrives in N-4 is none. -/
def isReply (job : Job) : Bool := job.jtype = ascii "5" && job.jstate ≠ .N4

/-- The reply is the row that `run_jobs` makes for the request: it goes to the sender and carries
the smaller capacity. Its state and its priority may have changed since. -/
def Answers (own : SelfInfo) (request reply : Job) : Prop :=
  ∃ (env : Env) (id : Uuid) (asked : Int) (row : Job), capacityField request.jobdata = .ok asked ∧
    consensusJob env id (ascii "5") (smaller own.systemCapacity asked) own
      (messageSource request.jobdata) request.jparentJobid = .ok row ∧
    reply = { row with jstate := reply.jstate, jpriority := reply.jpriority }

/-- A status is reported only about a message that was handed out. -/
def Settles (db : Db) : Operation → Prop
  | .updateStatus id _ => ∀ job ∈ db.jobScheduler, job.jobid = id →
      job.jstate = .S4W ∨ job.jstate = .S5
  | _ => True

instance (db : Db) : ∀ op, Decidable (Settles db op)
  | .updateStatus id _ => inferInstanceAs (Decidable (∀ job ∈ db.jobScheduler, job.jobid = id →
      job.jstate = .S4W ∨ job.jstate = .S5))
  | .runJobs _ | .importFile _ | .sendFile .. | .updateJobPriority .. | .storeData ..
    | .retrieve .. | .updateConns .. | .updateComms _ | .deleteComms _ | .getcomms _
    | .insertConns .. => inferInstanceAs (Decidable True)

structure Typed (job : Job) : Prop where
  request : job.jtype = typeField "4" → job.jstate = .N4 ∨ job.jstate = .C
  reply : job.jtype = ascii "5" → job.jstate = .N4 ∨ job.jstate = .S5 ∨ job.jstate = .C ∨
    job.jstate = .D

structure Inv (own : SelfInfo) (db : Db) : Prop where
  selfinfo : db.selfinfo = own
  typed : ∀ job ∈ db.jobScheduler, Typed job
  paired : PairedOff (Answers own) isTaken isReply db.jobScheduler

structure Spares (old new : Job) : Prop where
  typed : Typed new
  taken : isTaken new = isTaken old
  reply : isReply new = isReply old
  same : isTaken old = true ∨ isReply old = true →
    new = { old with jstate := new.jstate, jpriority := new.jpriority }

def Aside (job : Job) : Prop := job.jtype ≠ typeField "4" ∧ job.jtype ≠ ascii "5"

instance (job : Job) : Decidable (Aside job) := inferInstanceAs (Decidable (_ ∧ _))

section Steps

variable {own : SelfInfo} {env : Env} {job old new : Job} {db db' u t b x y : Db}

theorem Typed.of_aside (aside : Aside job) : Typed job :=
  ⟨fun type => absurd type aside.1, fun type => absurd type aside.2⟩

theorem Aside.off (aside : Aside job) : isTaken job = false ∧ isReply job = false := by
  constructor
  · simp [isTaken, aside.1]
  · simp [isReply, aside.2]

theorem Spares.refl (typed : Typed job) : Spares job job := ⟨typed, rfl, rfl, fun _ => rfl⟩

theorem spares_of_aside (before : Aside old) (after : Aside new) : Spares old new := by
  obtain ⟨taken, reply⟩ := before.off
  obtain ⟨taken', reply'⟩ := after.off
  refine ⟨.of_aside after, taken'.trans taken.symm, reply'.trans reply.symm, fun kind => ?_⟩
  simp [taken, reply] at kind

theorem Typed.aside (typed : Typed job)
    (other : job.jstate ≠ .N4 ∧ job.jstate ≠ .S5 ∧ job.jstate ≠ .C ∧ job.jstate ≠ .D) :
    Aside job := by
  obtain ⟨n4, s5, c, d⟩ := other
  constructor
  · intro type
    rcases typed.request type with state | state
    · exact n4 state
    · exact c state
  · intro type
    rcases typed.reply type with state | state | state | state
    · exact n4 state
    · exact s5 state
    · exact c state
    · exact d state

theorem spares_state (typed : Typed old)
    (other : old.jstate ≠ .N4 ∧ old.jstate ≠ .S5 ∧ old.jstate ≠ .C ∧ old.jstate ≠ .D)
    (type : new.jtype = old.jtype) : Spares old new := by
  have aside := typed.aside other
  exact spares_of_aside aside ⟨type ▸ aside.1, type ▸ aside.2⟩

theorem Answers.spared {request reply request' reply' : Job} (answers : Answers own request reply)
    (asking : request' = { request with jstate := request'.jstate, jpriority := request'.jpriority })
    (answering : reply' = { reply with jstate := reply'.jstate, jpriority := reply'.jpriority }) :
    Answers own request' reply' := by
  obtain ⟨env, id, asked, row, field, made, same⟩ := answers
  refine ⟨env, id, asked, row, ?_, ?_, ?_⟩
  · rw [asking]
    exact field
  · rw [asking]
    exact made
  · rw [answering, same]

theorem Inv.rows (inv : Inv own db) (change : Job → Job) (fresh : List Job)
    (rows : db'.jobScheduler = db.jobScheduler.map change ++ fresh)
    (selfinfo : db'.selfinfo = db.selfinfo)
    (spares : ∀ job ∈ db.jobScheduler, Spares job (change job))
    (aside : ∀ job ∈ fresh, Aside job) : Inv own db' := by
  refine ⟨selfinfo.trans inv.selfinfo, fun job member => ?_, ?_⟩
  · rw [rows] at member
    rcases List.mem_append.mp member with kept | new
    · obtain ⟨old, inside, rfl⟩ := List.mem_map.mp kept
      exact (spares old inside).typed
    · exact .of_aside (aside job new)
  · rw [rows]
    refine PairedOff.append ?_ fun job member => (aside job member).off
    refine inv.paired.map (fun job member => (spares job member).taken)
      (fun job member => (spares job member).reply) fun request asked reply answer ask answering related => ?_
    exact related.spared ((spares request asked).same (.inl ask))
      ((spares reply answer).same (.inr answering))

theorem Inv.update {condition : Job → Bool} {change : Job → Job} (inv : Inv own db)
    (spares : ∀ job ∈ db.jobScheduler, Typed job → condition job = true →
      Spares job (change job)) : Inv own (db.updateJobs condition change) := by
  refine inv.rows _ [] (List.append_nil _).symm rfl (fun job member => ?_) (by simp)
  split
  · next holds => exact spares job member (inv.typed job member) holds
  · exact .refl (inv.typed job member)

theorem Inv.insert {rows : List Job} (inv : Inv own db) (done : db.insertJobs rows = .ok db')
    (aside : ∀ job ∈ rows, Aside job) : Inv own db' := by
  obtain ⟨appended, only⟩ := insertJobs_ok done
  refine inv.rows id rows ?_ only.selfinfo (fun job member => .refl (inv.typed job member)) aside
  rw [appended, List.map_id]

theorem Inv.same (inv : Inv own db) (rows : db'.jobScheduler = db.jobScheduler)
    (selfinfo : db'.selfinfo = db.selfinfo) : Inv own db' :=
  ⟨selfinfo.trans inv.selfinfo, rows ▸ inv.typed, rows ▸ inv.paired⟩

theorem inv_checkHash (inv : Inv own db) : Inv own (checkHash db) := by
  have each (db : Db) (inv : Inv own db) (test : Job → Bool) (state : JState) :
      Inv own (db.updateJobs (fun job => job.jstate = .N1 && test job)
        fun job => { job with jstate := state }) := by
    refine inv.update fun job _ typed holds => ?_
    simp only [Bool.and_eq_true, decide_eq_true_eq] at holds
    exact spares_state typed (by rw [holds.1]; decide) rfl
  exact each _ (each db inv _ .N2) (fun job => !hashMatches job.jobdata) .D

theorem inv_route (inv : Inv own db) : Inv own (route db) := by
  have first : Inv own (db.updateJobs
      (fun job => job.jstate = .N2 && messageDestination job.jobdata ∈ rootDestinations db)
      fun job => { job with jstate := .N3 }) := by
    refine inv.update fun job _ typed holds => ?_
    simp only [Bool.and_eq_true, decide_eq_true_eq] at holds
    exact spares_state typed (by rw [holds.1]; decide) rfl
  refine first.update fun job _ typed holds => ?_
  simp only [Bool.and_eq_true, decide_eq_true_eq] at holds
  exact spares_state typed (by rw [holds.1]; decide) rfl

theorem inv_identifyType (inv : Inv own db) : Inv own (identifyType db) := by
  refine inv.update fun job _ typed holds => ?_
  have state : job.jstate = .N3 := by simpa using holds
  obtain ⟨taken, reply⟩ := (typed.aside (by rw [state]; decide)).off
  refine ⟨⟨fun _ => .inl rfl, fun _ => .inl rfl⟩, ?_, ?_, fun kind => ?_⟩
  · rw [taken]
    simp [isTaken]
  · rw [reply]
    simp [isReply]
  · simp [taken, reply] at kind

theorem inv_completeSplit (inv : Inv own db) (done : completeSplit db = .ok u) : Inv own u := by
  rcases completeSplit_ok done with ⟨-, rfl⟩ | ⟨parents, -, rfl⟩
  · exact inv
  · refine inv.update fun job _ typed holds => ?_
    simp only [Bool.and_eq_true, decide_eq_true_eq] at holds
    exact spares_state typed (by rw [holds.1]; decide) rfl

theorem inv_completeSingle (inv : Inv own db) : Inv own (completeSingle db) := by
  refine inv.update fun job _ typed holds => ?_
  simp only [Bool.and_eq_true, decide_eq_true_eq] at holds
  exact spares_state typed (by rw [holds.1]; decide) rfl

theorem inv_requestConsensus (inv : Inv own db) (done : requestConsensus env db = .ok t) :
    Inv own t := by
  obtain ⟨rows, built, inserted⟩ := bind_ok.mp done
  refine inv.insert inserted fun job member => ?_
  obtain ⟨⟨⟨si, js⟩, i⟩, -, made⟩ := forall₂_mem_right (mapM_ok.mp built) member
  rw [Aside, (consensusJob_row made).2.2.1]
  decide

theorem inv_startKnown (inv : Inv own db) : Inv own (startKnown db) := by
  refine inv.update fun job _ typed holds => ?_
  simp only [Bool.and_eq_true, decide_eq_true_eq] at holds
  exact spares_state typed (by rw [holds.2]; decide) rfl

theorem request_off (request : isRequest job = true) : isTaken job = false ∧ isReply job = false := by
  simp only [isRequest, Bool.and_eq_true, decide_eq_true_eq] at request
  constructor
  · simp [isTaken, request.1]
  · simp [isReply, request.1]

theorem request_taken (request : isRequest job = true) :
    isTaken { job with jstate := .C } = true ∧ isReply { job with jstate := .C } = false := by
  simp only [isRequest, Bool.and_eq_true, decide_eq_true_eq] at request
  constructor
  · simp [isTaken, request.2]
  · have other : typeField "4" ≠ ascii "5" := by decide
    simp [isReply, request.2, other]

theorem Inv.answer {request reply : Job} (inv : Inv own db) (one : pending "4" db = [request])
    (answers : Answers own request reply) (state : reply.jstate = .S5) (type : reply.jtype = ascii "5")
    (inserted : db.insertJob reply = .ok db') : Inv own (finishPending "4" db') := by
  obtain ⟨appended, only, -⟩ := insertJob_ok inserted
  have waits : isRequest reply = false := by simp [isRequest, state]
  have taken : isTaken reply = false := by simp [isTaken, state]
  have replies : isReply reply = true := by simp [isReply, state, type]
  let finish (job : Job) : Job := if isRequest job then { job with jstate := .C } else job
  have rows : (finishPending "4" db').jobScheduler = db'.jobScheduler.map finish := rfl
  refine ⟨only.selfinfo.trans inv.selfinfo, fun job member => ?_, ?_⟩
  · rw [rows, appended] at member
    obtain ⟨old, inside, rfl⟩ := List.mem_map.mp member
    have typed : Typed old := by
      rcases List.mem_append.mp inside with kept | new
      · exact inv.typed old kept
      · rw [List.mem_singleton.mp new]
        refine ⟨fun other => ?_, fun _ => .inr (.inl state)⟩
        exact absurd (type.symm.trans other) (by decide)
    by_cases request : isRequest old = true
    · simp only [finish, if_pos request]
      exact ⟨fun _ => .inr rfl, fun _ => .inr (.inr (.inl rfl))⟩
    · simpa only [finish, if_neg request] using typed
  · have asked : ((finishPending "4" db').jobScheduler.filter isTaken).Perm
        ({ request with jstate := .C } :: db.jobScheduler.filter isTaken) := by
      have chosen : db'.jobScheduler.filter isRequest = [request] := by
        rw [appended, List.filter_append, List.filter_cons_of_neg (by simp [waits])]
        exact (List.append_nil _).trans one
      have old : db'.jobScheduler.filter isTaken = db.jobScheduler.filter isTaken := by
        rw [appended, List.filter_append, List.filter_cons_of_neg (by simp [taken])]
        exact List.append_nil _
      have updated : ((db'.jobScheduler.map finish).filter isTaken).Perm
          ((db'.jobScheduler.filter isRequest).map (fun job => { job with jstate := .C }) ++
            db'.jobScheduler.filter isTaken) :=
        filter_update (fun job _ request => (request_off request).1)
          fun job _ request => (request_taken request).1
      rwa [chosen, old] at updated
    have answered : ((finishPending "4" db').jobScheduler.filter isReply).Perm
        (reply :: db.jobScheduler.filter isReply) := by
      have kind (job : Job) : isReply (finish job) = isReply job := by
        by_cases request : isRequest job = true
        · simp only [finish, if_pos request, (request_taken request).2, (request_off request).2]
        · simp only [finish, if_neg request]
      have same : ∀ job ∈ db'.jobScheduler.filter isReply, finish job = job := by
        intro job member
        refine if_neg fun request => ?_
        have answer := (List.mem_filter.mp member).2
        rw [(request_off request).2] at answer
        cases answer
      have kept : (finishPending "4" db').jobScheduler.filter isReply =
          db'.jobScheduler.filter isReply := by
        calc
          _ = (db'.jobScheduler.filter isReply).map finish :=
            filter_map_of_same fun job _ => kind job
          _ = (db'.jobScheduler.filter isReply).map id := List.map_congr_left same
          _ = db'.jobScheduler.filter isReply := List.map_id _
      rw [kept, appended, List.filter_append, List.filter_cons_of_pos replies]
      exact List.perm_append_singleton reply _
    exact inv.paired.cons (answers.spared rfl rfl) asked answered

theorem inv_answerRequests (inv : Inv own db) (done : answerRequests env db = .ok b) :
    Inv own b := by
  rcases answerRequests_ok done with ⟨none, rfl⟩ | ⟨request, r, reply, u, v, one, read, written, made,
    inserted, rfl⟩
  · refine inv.update fun job member _ holds => ?_
    have listed : job ∈ pending "4" db := List.mem_filter.mpr ⟨member, holds⟩
    rw [none] at listed
    cases listed
  · have frame := upsertSysinfo_frame written
    have waits : pending "4" u = [request] := by rw [← one, pending, frame.jobScheduler, pending]
    obtain ⟨-, state, type, -, -⟩ := consensusJob_row made
    refine (inv.same frame.jobScheduler frame.selfinfo).answer waits ?_ state type inserted
    obtain ⟨asked, field, rest⟩ := bind_ok.mp read
    obtain ⟨port, -, rest⟩ := bind_ok.mp rest
    obtain ⟨source, -, last⟩ := bind_ok.mp rest
    obtain rfl := pure_ok.mp last
    refine ⟨env, env.uuid 1 0, asked, reply, field, ?_, rfl⟩
    rw [← inv.selfinfo]
    exact made

theorem inv_takeReplies (inv : Inv own db) (done : takeReplies db = .ok x) : Inv own x := by
  obtain ⟨u, applied, rfl⟩ := takeReplies_ok done
  have frame := applyReplies_frame applied
  refine (inv.same frame.jobScheduler frame.selfinfo).update fun job _ _ holds => ?_
  simp only [Bool.and_eq_true, decide_eq_true_eq] at holds
  have aside : Aside job := by
    rw [Aside, holds.2]
    decide
  exact spares_of_aside aside aside

theorem inv_updateM {condition : Job → Sql Bool} {state : JState} (inv : Inv own db)
    (done : db.updateJobsM condition (fun job => { job with jstate := state }) = .ok db')
    (chosen : ∀ job, condition job = .ok true → job.jstate = .S1) : Inv own db' := by
  obtain ⟨only, -, rows⟩ := updateJobsM_ok done
  refine inv.rows _ [] (by rw [rows, List.append_nil]) only.selfinfo (fun job member => ?_) (by simp)
  have typed := inv.typed job member
  split
  · next holds => exact spares_state typed (by rw [chosen job holds]; decide) rfl
  · exact .refl typed

theorem aside_message {mdata : Bytea} {type : Text} {js : Job}
    (made : messageJob mdata type js = .ok job)
    (other : type ≠ typeField "4" ∧ type ≠ ascii "5") : Aside job := by
  rw [Aside, (messageJob_ok made).2.2.2.1]
  exact other

theorem inv_splitJobs (inv : Inv own db) (done : splitJobs env db = .ok y) : Inv own y := by
  obtain ⟨a, split, rest⟩ := bind_ok.mp done
  obtain ⟨b, single, rest⟩ := bind_ok.mp rest
  obtain ⟨c, singles, rest⟩ := bind_ok.mp rest
  obtain ⟨d, chunks, rest⟩ := bind_ok.mp rest
  obtain ⟨e, infos, last⟩ := bind_ok.mp rest
  obtain rfl := pure_ok.mp last
  have waiting (x : Db) (test : Int → Int → Bool) (job : Job)
      (holds : (if job.jstate = .S1 then measured x test job else return false) = .ok true) :
      job.jstate = .S1 := by
    by_contra other
    rw [if_neg other] at holds
    cases holds
  have first : Inv own a := inv_updateM inv split (waiting db _)
  have second : Inv own b := inv_updateM first single (waiting a _)
  have third : Inv own c := by
    obtain ⟨rows, -, rest⟩ := bind_ok.mp singles
    obtain ⟨jobs, built, inserted⟩ := bind_ok.mp rest
    refine second.insert inserted fun job member => ?_
    obtain ⟨row, -, made⟩ := forall₂_mem_right (mapM_ok.mp built) member
    obtain ⟨mdata, -, last⟩ := singleMessage_ok made
    exact aside_message last (by decide)
  have fourth : Inv own d := by
    obtain ⟨rows, -, rest⟩ := bind_ok.mp chunks
    obtain ⟨parts, -, rest⟩ := bind_ok.mp rest
    obtain ⟨jobs, built, inserted⟩ := bind_ok.mp rest
    refine third.insert inserted fun job member => ?_
    obtain ⟨row, -, made⟩ := forall₂_mem_right (mapM_ok.mp built) member
    obtain ⟨mdata, -, last⟩ := chunkMessage_ok made
    exact aside_message last (by decide)
  have fifth : Inv own e := by
    obtain ⟨rows, -, rest⟩ := bind_ok.mp infos
    obtain ⟨jobs, built, inserted⟩ := bind_ok.mp rest
    refine fourth.insert inserted fun job member => ?_
    obtain ⟨row, -, made⟩ := forall₂_mem_right (mapM_ok.mp built) member
    obtain ⟨_, _, mdata, -, -, -, -, last⟩ := infoMessage_ok made
    exact aside_message last (by decide)
  have sixth : Inv own (e.updateJobs (fun job => job.jstate = .S2 && knownName e job.jdestination)
      fun job => { job with jstate := .S2W }) := by
    refine fifth.update fun job _ typed holds => ?_
    simp only [Bool.and_eq_true, decide_eq_true_eq] at holds
    exact spares_state typed (by rw [holds.1]; decide) rfl
  refine sixth.update fun job _ typed holds => ?_
  simp only [Bool.and_eq_true, decide_eq_true_eq] at holds
  exact spares_state typed (by rw [holds.1]; decide) rfl

theorem inv_runJobs (inv : Inv own db) (done : runJobs env db = .ok db') : Inv own db' := by
  obtain ⟨u, t, b, x, y, stages⟩ := Repetition.stages_of done
  have received : Inv own (receive db) := inv_identifyType (inv_route (inv_checkHash inv))
  have requested : Inv own t :=
    inv_requestConsensus (inv_completeSingle (inv_completeSplit received stages.completed))
      stages.requested
  have answered : Inv own b := inv_answerRequests (inv_startKnown requested) stages.answered
  have split : Inv own y := inv_splitJobs (inv_takeReplies answered stages.replied) stages.split
  have managed := manageConns_frame stages.managed
  exact split.same managed.jobScheduler managed.selfinfo

theorem inv_insertJob {job : Job} (inv : Inv own db) (inserted : db.insertJob job = .ok db')
    (aside : Aside job) : Inv own db' := by
  obtain ⟨appended, only, -⟩ := insertJob_ok inserted
  refine inv.rows id [job] (by rw [appended, List.map_id]) only.selfinfo
    (fun old member => .refl (inv.typed old member)) fun row single => ?_
  rwa [List.mem_singleton.mp single]

theorem inv_perform {op : Operation} (keys : db.Keys) (inv : Inv own db) (settles : Settles db op)
    (step : db.perform op = some db') : Inv own db' := by
  cases Db.touches_of_perform step with
  | rests jobs selfinfo => exact inv.same jobs selfinfo
  | passes done => exact inv_runJobs inv done
  | sends read member self inserted =>
      have aside : typeField "6" ≠ typeField "4" ∧ typeField "6" ≠ ascii "5" := by decide
      exact inv_insertJob inv inserted aside
  | stores member self inserted =>
      have aside : ascii "0" ≠ typeField "4" ∧ ascii "0" ≠ ascii "5" := by decide
      exact inv_insertJob inv inserted aside
  | prioritizes =>
      refine inv.update fun job _ typed _ => ?_
      exact ⟨⟨typed.request, typed.reply⟩, rfl, rfl, fun _ => rfl⟩
  | @retrieves sc job listed =>
      obtain ⟨-, member, ready, -⟩ := Db.mem_sGetInfo.mp listed
      refine inv.update fun other inside typed holds => ?_
      obtain rfl := List.inj_on_of_nodup_map keys.jobids inside member (by simpa using holds)
      exact spares_state typed (by rw [ready]; decide) rfl
  | @reports id status =>
      refine inv.update fun job member typed holds => ?_
      have settled : (if status > 0 then JState.C else .D) = .C ∨
          (if status > 0 then JState.C else .D) = .D := by
        split
        · exact .inl rfl
        · exact .inr rfl
      rcases settles job member (by simpa using holds) with state | state
      · exact spares_state typed (by rw [state]; decide) rfl
      · -- a reply stays one, and a request is not in S-5
        have other : job.jtype ≠ typeField "4" := by
          intro type
          rcases typed.request type with wrong | wrong
          · cases state.symm.trans wrong
          · cases state.symm.trans wrong
        refine ⟨⟨fun type => absurd type other, fun _ => .inr (.inr settled)⟩, ?_, ?_, fun _ => rfl⟩
        · simp [isTaken, other]
        · rcases settled with last | last
          · simp [isReply, state, last]
          · simp [isReply, state, last]

end Steps

/-- In every run whose statuses are about messages that were handed out, the requests that were
taken and the replies of this system make pairs: every request has been answered once, to its
sender, with the smaller capacity. -/
theorem answered_once {root : Uuid} {own : SelfInfo} {known : List SysInfo} {ops : List Operation}
    {db : Db} (settled : Guarded Db.perform Settles (startDb root own known) ops)
    (done : run Db.perform (startDb root own known) ops = some db) :
    PairedOff (Answers own) isTaken isReply db.jobScheduler := by
  have aside : ∀ job ∈ (startDb root own known).jobScheduler, Aside job := by
    intro job member
    have type : job.jtype = ascii "0" := by
      rw [List.mem_singleton.mp member]
    rw [Aside, type]
    decide
  have none : PairedOff (Answers own) isTaken isReply [] := Multiset.Rel.zero
  have start : (startDb root own known).Keys ∧ Inv own (startDb root own known) :=
    ⟨(family_start root own known).keys, rfl, fun job member => .of_aside (aside job member),
      none.append fun job member => (aside job member).off⟩
  have keeps (s : Db) (op : Operation) (t : Db) (inv : s.Keys ∧ Inv own s) (allowed : Settles s op)
      (moved : s.perform op = some t) : t.Keys ∧ Inv own t :=
    ⟨Db.keys_perform inv.1 moved, inv_perform inv.1 inv.2 allowed moved⟩
  exact (guarded_run_keeps keeps start settled done).2.paired

section Samples

open Requests (peerData peerM1 peerM2)

def laterEnv : Env :=
  { sampleEnv with uuid := fun statement i => Uuid.ofNat (1000 + 100 * (statement + 1) + i) }

def asking : List Operation :=
  [.storeData (Uuid.ofNat 5) 7 (peerData peerM1 (ascii "4")), .runJobs sampleEnv,
    .storeData (Uuid.ofNat 6) 8 (peerData peerM2 (ascii "4")), .runJobs laterEnv,
    .updateStatus (Uuid.ofNat 200) 1]

theorem two_answered : ∃ db, run Db.perform (sampleStart []) asking = some db ∧
    PairedOff (Answers ⟨ascii "   M3", 2130706433, 6001, 32768⟩) isTaken isReply db.jobScheduler ∧
    (db.jobScheduler.filter isReply).length = 2 := by
  obtain ⟨db, done, count⟩ := Option.map_eq_some_iff.mp
    (by decide +kernel : (run Db.perform (sampleStart []) asking).map
      (fun db => (db.jobScheduler.filter isReply).length) = some 2)
  exact ⟨db, done, answered_once (by decide +kernel) done, count⟩

end Samples

end Correspondence

end FileSharing
