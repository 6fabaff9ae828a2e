import FileSharing.Database.Consensus

/-! The type 4 requests that one pass answers. -/

namespace FileSharing

open Library RunJobs

/-- A name as `lpad(name, 5, ' ')` makes it. -/
structure IsName (name : Text) : Prop where
  length : name.length = 5
  plain : Plain name
  trimmed : rtrim name = name

namespace Requests

/-- A request that a peer built, with what it asks for. -/
structure WellFormed (own : Text) (job : Job) (r : Request) : Prop where
  carries : Carries job.jobdata (ascii "4") r.sourceName own r.rcapacity r.rport r.sourceIp
  name : IsName r.sourceName
  capacity : IsInt4 r.rcapacity
  port : 1 ≤ r.rport ∧ r.rport ≤ 65535
  address : 0 ≤ r.sourceIp ∧ r.sourceIp < 2 ^ 32

/-- A pass from `db` to `db'` answers the requests `rs` that it finds in N-4. -/
structure Answered (rs : List Request) (db db' : Db) : Prop where
  sysinfo : ∀ r ∈ rs, ∃ si ∈ db'.sysinfo, si.systemName = r.sourceName ∧
    si.ipaddress = r.sourceIp ∧ si.dataport = some r.rport ∧
    si.systemCapacity = some (min r.rcapacity db.selfinfo.systemCapacity)
  replies : List.Forall₂ (fun r (reply : Job) => reply.jdestination = r.sourceName ∧
      Carries reply.jobdata (ascii "5") db.selfinfo.systemName r.sourceName
        (min r.rcapacity db.selfinfo.systemCapacity) db.selfinfo.dataport db.selfinfo.ipaddress)
    rs (db'.jobScheduler.filter fun job =>
      job.jstate = .S5 && job.jtype = ascii "5" && job.jobid ∉ db.jobids)
  completed : ∀ job ∈ pending "4" (receive db), { job with jstate := .C } ∈ db'.jobScheduler

/-- At most one request, with an address that an `INTEGER` can hold and that no other
system is known under. -/
def Single (db : Db) (rs : List Request) : Prop :=
  rs.length ≤ 1 ∧ ∀ r ∈ rs, r.sourceIp < 2 ^ 31 ∧
    ∀ si ∈ db.sysinfo, si.ipaddress = r.sourceIp → si.systemName = r.sourceName

theorem smaller_eq_min (own asked : Int) : smaller own asked = min asked own := by
  unfold smaller
  split <;> omega

section Request

variable {own : Text} {job : Job} {r : Request}

theorem messageSource_eq (wellFormed : WellFormed own job r) :
    messageSource job.jobdata = r.sourceName := by
  rw [wellFormed.carries.source, lpad_of_length wellFormed.name.length]

theorem addressField_eq (wellFormed : WellFormed own job r) :
    int4in (addressField job.jobdata) = int4 r.sourceIp := by
  obtain ⟨low, high⟩ := wellFormed.address
  have fits : (intText r.sourceIp).length ≤ 11 :=
    length_intText_le (le_trans (by decide) low) (lt_trans high (by decide))
  rw [wellFormed.carries.address]
  simp [int4in, integerIn_lpad fits]

theorem requestOf_eq (wellFormed : WellFormed own job r) (small : r.sourceIp < 2 ^ 31) :
    requestOf job = .ok r := by
  obtain ⟨low, -⟩ := wellFormed.address
  have range : int4Min ≤ r.sourceIp ∧ r.sourceIp ≤ int4Max := by
    unfold int4Min int4Max
    omega
  obtain ⟨first, last⟩ := wellFormed.port
  have port : IsInt4 r.rport := by
    unfold IsInt4 int4Min int4Max
    omega
  have address : int4in (addressField job.jobdata) = .ok r.sourceIp := by
    rw [addressField_eq wellFormed, int4, if_pos range]
  simp only [requestOf, wellFormed.carries.capacityField wellFormed.capacity,
    wellFormed.carries.portField port, address, messageSource_eq wellFormed, bind, Except.bind, pure,
    Except.pure]

theorem requestOf_small {r' : Request} (wellFormed : WellFormed own job r)
    (read : requestOf job = .ok r') : r.sourceIp < 2 ^ 31 := by
  simp only [requestOf, bind_ok, addressField_eq wellFormed] at read
  obtain ⟨_, -, _, -, address, small, -⟩ := read
  have range := (int4_ok small).2.2
  unfold int4Max at range
  omega

end Request

section Upsert

variable {db db' : Db} {r : Request}

theorem name_eq (name : IsName r.sourceName) : rtrim (lpad r.sourceName 5) = r.sourceName := by
  rw [lpad_of_length name.length, name.trimmed]

theorem upsertSysinfo_total (capacity : Option Int) (name : IsName r.sourceName)
    (free : ∀ si ∈ db.sysinfo, si.ipaddress = r.sourceIp → si.systemName = r.sourceName) :
    ∃ u, upsertSysinfo [(r, capacity)] db (r, capacity) = .ok u ∧
      ∃ si ∈ u.sysinfo, si.systemName = r.sourceName ∧ si.ipaddress = r.sourceIp ∧
        si.dataport = some r.rport ∧ si.systemCapacity = capacity := by
  unfold upsertSysinfo
  simp only [name_eq name]
  split
  · next conflict =>
      obtain ⟨old, member, same⟩ := List.any_eq_true.mp conflict
      simp only [Bool.and_eq_true, decide_eq_true_eq] at same
      refine ⟨_, by simp only [List.filter_cons, decide_true, Bool.and_self, if_true,
        List.filter_nil, scalar, bind, Except.bind]; rfl, ?_⟩
      rw [(writeSysinfo_ok db _ _).2]
      refine ⟨_, List.mem_map_of_mem member, ?_⟩
      simp [same.1, same.2]
  · next absent =>
      have unknown : ¬ (db.sysinfo.any fun si => si.ipaddress = r.sourceIp) = true := by
        intro known
        obtain ⟨old, member, same⟩ := List.any_eq_true.mp known
        have address : old.ipaddress = r.sourceIp := by simpa using same
        exact absent (List.any_eq_true.mpr ⟨old, member, by simp [address, free old member address]⟩)
      rw [if_neg unknown]
      refine ⟨_, rfl, ⟨r.sourceName, r.sourceIp, some r.rport, 7000, capacity⟩, ?_, rfl, rfl, rfl, rfl⟩
      rw [(onlySysinfo_createComms _ _).2]
      exact List.mem_append_right _ (List.mem_singleton.mpr rfl)

theorem upsertSysinfo_free {capacity : Option Int} (name : IsName r.sourceName)
    (unique : (db.sysinfo.map SysInfo.ipaddress).Nodup)
    (done : upsertSysinfo [(r, capacity)] db (r, capacity) = .ok db') :
    ∀ si ∈ db.sysinfo, si.ipaddress = r.sourceIp → si.systemName = r.sourceName := by
  intro si member address
  rcases upsertSysinfo_ok done with ⟨found, -, ⟨old, inside, named, same⟩, -⟩ | ⟨new, -, free, -⟩
  · have one : si = old := List.inj_on_of_nodup_map unique member inside (address.trans same.symm)
    rw [one, named, name_eq name]
  · exact absurd address (free si member)

end Upsert

section Pass

variable {env : Env} {db db' a u v : Db} {rs : List Request} {request reply : Job} {r : Request}

theorem mem_pending {digit : String} {job : Job} :
    job ∈ pending digit db ↔ job ∈ db.jobScheduler ∧ job.jstate = .N4 ∧ job.jtype = typeField digit := by
  simp [pending]

theorem jobids_frame (same : db'.jobScheduler = db.jobScheduler) : db'.jobids = db.jobids := by
  rw [Db.jobids, same, Db.jobids]

theorem pending_update {digit : String} {condition : Job → Bool} {change : Job → Job}
    (other : ∀ job, condition job = true → job.jstate ≠ .N4 ∧ (change job).jstate ≠ .N4) :
    pending digit (db.updateJobs condition change) = pending digit db := by
  refine filter_unchanged fun job either => ?_
  by_cases holds : condition job = true
  · rw [if_pos holds] at either
    simp [other job holds] at either
  · rw [if_neg holds]

theorem pending_completed {digit : String} (completed : completeSplit db = .ok u) :
    pending digit (completeSingle u) = pending digit db := by
  have single : pending digit (completeSingle u) = pending digit u := by
    refine pending_update fun job holds => ?_
    simp only [Bool.and_eq_true, decide_eq_true_eq] at holds
    simp [holds]
  rw [single]
  cases completeSplit_ok completed with
  | inl same => rw [same.2]
  | inr changed =>
      obtain ⟨parents, -, rfl⟩ := changed
      refine pending_update fun job holds => ?_
      simp only [Bool.and_eq_true, decide_eq_true_eq] at holds
      simp [holds]

theorem pending_requested {digit : String} (requested : requestConsensus env db = .ok u) :
    pending digit u = pending digit db := by
  obtain ⟨rows, built, inserted⟩ := bind_ok.mp requested
  have new : rows.filter (fun job => job.jstate = .N4 && job.jtype = typeField digit) = [] := by
    apply List.filter_eq_nil_iff.mpr
    intro job member
    obtain ⟨row, -, made⟩ := forall₂_mem_right (mapM_ok.mp built) member
    simp [(consensusJob_row made).2.1]
  rw [pending, (insertJobs_ok inserted).1, List.filter_append, new, List.append_nil, pending]

theorem pending_promote {digit : String} (promoted : promote env db = .ok a) :
    pending digit a = pending digit (receive db) := by
  obtain ⟨u, completed, rest⟩ := bind_ok.mp promoted
  obtain ⟨v, requested, last⟩ := bind_ok.mp rest
  obtain rfl := pure_ok.mp last
  have started : pending digit (startKnown v) = pending digit v := by
    refine pending_update fun job holds => ?_
    simp only [Bool.and_eq_true, decide_eq_true_eq] at holds
    simp [holds]
  calc
    pending digit (startKnown v) = pending digit (completeSingle u) :=
      started.trans (pending_requested requested)
    _ = pending digit (receive db) := pending_completed completed

theorem no_replies (promoted : promote env db = .ok a) {change : Job → Job}
    (kept : ∀ job, (change job).jobid = job.jobid ∧ (change job).jtype = job.jtype) :
    (a.jobScheduler.map change).filter (fun job =>
      job.jstate = .S5 && job.jtype = ascii "5" && job.jobid ∉ db.jobids) = [] := by
  obtain ⟨⟨-, moved, fresh, moves, rows, each⟩, -⟩ := promote_ok (w := ⟨true, true⟩) rfl promoted
  apply List.filter_eq_nil_iff.mpr
  intro job member
  obtain ⟨old, inside, rfl⟩ := List.mem_map.mp member
  rw [rows] at inside
  rcases List.mem_append.mp inside with before | new
  · obtain ⟨first, present, rfl⟩ := List.mem_map.mp before
    have known : first.jobid ∈ db.jobids := List.mem_map_of_mem present
    simp [(kept _).1, (moves first).jobid, known]
  · obtain ⟨i, si, -, js, -, -, made⟩ := each old new
    have four : old.jtype = ascii "4" := (consensusJob_row made).2.2.1
    have other : ascii "4" ≠ ascii "5" := by decide
    simp [(kept _).2, four, other]

theorem finishPending_kept (digit : String) (job : Job) :
    let after := if (job.jstate = .N4 && job.jtype = typeField digit) = true then
      { job with jstate := .C } else job
    after.jobid = job.jobid ∧ after.jtype = job.jtype := by
  dsimp only
  split
  · exact ⟨rfl, rfl⟩
  · exact ⟨rfl, rfl⟩

theorem answered_nil (promoted : promote env db = .ok a) (none : pending "4" a = []) :
    Answered [] db (finishPending "4" a) := by
  constructor
  · simp
  · rw [finishPending, Db.updateJobs, no_replies promoted (finishPending_kept "4")]
    exact List.Forall₂.nil
  · rw [← pending_promote promoted]
    simp [none]

theorem answered_one (promoted : promote env db = .ok a) (frame : OnlySysinfo a u)
    (learned : ∃ si ∈ u.sysinfo, si.systemName = r.sourceName ∧ si.ipaddress = r.sourceIp ∧
      si.dataport = some r.rport ∧
      si.systemCapacity = some (min r.rcapacity a.selfinfo.systemCapacity))
    (is : IsConsensus reply (env.uuid 1 0) (ascii "5") (min r.rcapacity a.selfinfo.systemCapacity)
      a.selfinfo r.sourceName request.jparentJobid)
    (inserted : u.insertJob reply = .ok v) : Answered [r] db (finishPending "4" v) := by
  obtain ⟨rows, only, fresh, -⟩ := insertJob_ok inserted
  obtain ⟨⟨-, moved, _, moves, old, -⟩, onlyJobs⟩ := promote_ok (w := ⟨true, true⟩) rfl promoted
  rw [frame.jobScheduler] at rows
  rw [onlyJobs.selfinfo] at learned is
  constructor
  · intro r' member
    rw [List.mem_singleton.mp member, finishPending, (onlyJobs_update _ _ _).sysinfo, only.sysinfo]
    exact learned
  · rw [finishPending, Db.updateJobs, rows, List.map_append, List.filter_append,
      no_replies promoted (finishPending_kept "4")]
    have new : reply.jobid ∉ db.jobids := by
      intro known
      obtain ⟨job, present, same⟩ := List.mem_map.mp known
      refine fresh ?_
      rw [jobids_frame frame.jobScheduler, Db.jobids, old]
      exact List.mem_map.mpr ⟨moved job, List.mem_append_left _ (List.mem_map_of_mem present),
        (moves job).jobid.trans same⟩
    have kept : (if (reply.jstate = .N4 && reply.jtype = typeField "4") = true
        then { reply with jstate := .C } else reply) = reply := by
      simp [is.jstate]
    rw [List.map_singleton, kept, List.filter_cons_of_pos (by simp [is.jstate, is.jtype, new])]
    exact List.Forall₂.cons ⟨is.jdestination, is.carries⟩ List.Forall₂.nil
  · intro job member
    rw [← pending_promote promoted] at member
    obtain ⟨inside, state, type⟩ := mem_pending.mp member
    rw [finishPending, Db.updateJobs, rows]
    refine List.mem_map.mpr ⟨job, List.mem_append_left _ inside, ?_⟩
    simp [state, type]

theorem answers (promoted : promote env db = .ok a)
    (wellFormed : List.Forall₂ (WellFormed db.selfinfo.systemName) (pending "4" (receive db)) rs)
    (own : Plain db.selfinfo.systemName) (unique : (db.sysinfo.map SysInfo.ipaddress).Nodup)
    (done : answerRequests env a = .ok u) : Answered rs db u ∧ Single db rs := by
  have five : Plain (ascii "5") := by decide
  obtain ⟨-, only⟩ := promote_ok (w := ⟨true, true⟩) rfl promoted
  rw [← pending_promote promoted, ← only.selfinfo] at wellFormed
  rw [← only.selfinfo] at own
  rw [← only.sysinfo] at unique
  rcases answerRequests_ok done with ⟨none, rfl⟩ | ⟨request, r, reply, v, w, one, read, written,
    made, inserted, rfl⟩
  · rw [none, List.forall₂_nil_left_iff] at wellFormed
    subst wellFormed
    exact ⟨answered_nil promoted none, by simp, by simp⟩
  · rw [one] at wellFormed
    obtain ⟨asked, rest, well, tail, rfl⟩ := List.forall₂_cons_left_iff.mp wellFormed
    obtain rfl := List.forall₂_nil_left_iff.mp tail
    have small := requestOf_small well read
    obtain rfl := Except.ok.inj ((requestOf_eq well small).symm.trans read)
    have free := upsertSysinfo_free well.name unique written
    obtain ⟨v', same, learned⟩ := upsertSysinfo_total
      (some (smaller a.selfinfo.systemCapacity asked.rcapacity)) well.name free
    obtain rfl := Except.ok.inj (same.symm.trans written)
    rw [replyTo, messageSource_eq well] at made
    have is := consensusJob_ok five own well.name.plain made
    rw [smaller_eq_min] at is learned
    refine ⟨answered_one promoted (upsertSysinfo_frame written) learned is inserted, by simp, ?_⟩
    rw [only.sysinfo] at free
    simpa using ⟨small, free⟩

end Pass

def peerM1 : SelfInfo := ⟨ascii "   M1", 16843009, 6101, 65536⟩
def peerM2 : SelfInfo := ⟨ascii "   M2", 33686018, 6201, 1000⟩

def peerData (peer : SelfInfo) (type : Text) : Bytea :=
  ((consensusJob sampleEnv (Uuid.ofNat 7) type peer.systemCapacity peer (ascii "   M3")
    (Uuid.ofNat 0)).toOption.map Job.jobdata).getD []

theorem peerData_carries {peer : SelfInfo} {type : Text} (plainType : Plain type)
    (named : Plain peer.systemName) :
    Carries (peerData peer type) type peer.systemName (ascii "   M3") peer.systemCapacity
      peer.dataport peer.ipaddress := by
  have own : Plain (ascii "   M3") := by decide
  obtain ⟨job, made, is⟩ : ∃ job, consensusJob sampleEnv (Uuid.ofNat 7) type
      peer.systemCapacity peer (ascii "   M3") (Uuid.ofNat 0) = .ok job ∧
      IsConsensus job (Uuid.ofNat 7) type peer.systemCapacity peer (ascii "   M3")
        (Uuid.ofNat 0) := consensusJob_total plainType named own
  rw [peerData, made]
  exact is.carries

def asking (peer : SelfInfo) : Request :=
  ⟨peer.systemCapacity, peer.dataport, peer.ipaddress, peer.systemName⟩

end Requests

end FileSharing
