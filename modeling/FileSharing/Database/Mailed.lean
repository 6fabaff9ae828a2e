import FileSharing.Database.Announced
import FileSharing.Database.Made

/-! The messages of the exchange in S-5: the trigger `msg_for_initial_sender` announces each of
them once, and a system that their destination names is known when they are inserted or never. -/

namespace FileSharing

open Library RunJobs

namespace Mailed

/-- A name as `rtrim(lpad(name, 5, ' '))` makes it. -/
def IsTrimmed (name : Text) : Prop := name.length ≤ 5 ∧ rtrim name = name

def outgoing (js : Job) : Bool := js.jstate = .S5

def wanted (db : Db) : Nat :=
  db.jobScheduler.countP fun js => outgoing js && knownName db js.jdestination

structure Addressed (db : Db) (js : Job) : Prop where
  length : js.jobdata.length = 147
  destination : knownName db js.jdestination = true ∨ ¬ IsTrimmed js.jdestination

def Posted (db : Db) : Prop := ∀ js ∈ db.jobScheduler, js.jstate = .S5 → Addressed db js

structure Learned (db db' : Db) : Prop where
  kept : ∀ si ∈ db.sysinfo, ∃ si' ∈ db'.sysinfo, si'.systemName = si.systemName ∧
    si'.ipaddress = si.ipaddress ∧ si'.comssport = si.comssport
  fresh : ∀ si' ∈ db'.sysinfo, (∃ si ∈ db.sysinfo, si.systemName = si'.systemName) ∨
    IsTrimmed si'.systemName

section Learned

variable {a b c db db' : Db}

theorem knownName_iff {name : Text} :
    knownName db name = true ↔ ∃ si ∈ db.sysinfo, si.systemName = name := by
  simp [knownName]

theorem Learned.of_eq (same : db'.sysinfo = db.sysinfo) : Learned db db' :=
  ⟨fun si member => ⟨si, same ▸ member, rfl, rfl, rfl⟩,
    fun si member => .inl ⟨si, same ▸ member, rfl⟩⟩

theorem Learned.trans (first : Learned a b) (second : Learned b c) : Learned a c := by
  constructor
  · intro si member
    obtain ⟨si', inside, name, address, port⟩ := first.kept si member
    obtain ⟨si'', last, name', address', port'⟩ := second.kept si' inside
    exact ⟨si'', last, name'.trans name, address'.trans address, port'.trans port⟩
  · intro si member
    cases second.fresh si member with
    | inr trimmed => exact .inr trimmed
    | inl old =>
        obtain ⟨si', inside, same⟩ := old
        rw [← same]
        exact first.fresh si' inside

theorem Learned.known (learned : Learned db db') {name : Text} (known : knownName db name = true) :
    knownName db' name = true := by
  obtain ⟨si, member, rfl⟩ := knownName_iff.mp known
  obtain ⟨si', inside, same, -⟩ := learned.kept si member
  exact knownName_iff.mpr ⟨si', inside, same⟩

theorem Learned.known_or (learned : Learned db db') {name : Text}
    (known : knownName db' name = true) : knownName db name = true ∨ IsTrimmed name := by
  obtain ⟨si, member, rfl⟩ := knownName_iff.mp known
  exact (learned.fresh si member).imp_left knownName_iff.mpr

theorem Addressed.learned {js : Job} (addressed : Addressed db js) (learned : Learned db db') :
    Addressed db' js := by
  constructor
  · exact addressed.length
  · exact addressed.destination.imp_left learned.known

theorem Addressed.known {js : Job} (addressed : Addressed db js) (learned : Learned db db')
    (known : knownName db' js.jdestination = true) : knownName db js.jdestination = true := by
  cases addressed.destination with
  | inl before => exact before
  | inr never => exact (learned.known_or known).resolve_right never

theorem learned_writeSysinfo (db : Db) (condition : SysInfo → Bool) {change : SysInfo → SysInfo}
    (same : ∀ si, (change si).systemName = si.systemName ∧ (change si).ipaddress = si.ipaddress ∧
      (change si).comssport = si.comssport) : Learned db (writeSysinfo db condition change) := by
  have rows := (writeSysinfo_ok db condition change).2
  have each (si : SysInfo) : (if condition si then change si else si).systemName = si.systemName ∧
      (if condition si then change si else si).ipaddress = si.ipaddress ∧
      (if condition si then change si else si).comssport = si.comssport := by
    split
    · exact same si
    · exact ⟨rfl, rfl, rfl⟩
  constructor
  · intro si member
    rw [rows]
    exact ⟨_, List.mem_map_of_mem member, each si⟩
  · intro si member
    rw [rows] at member
    obtain ⟨old, inside, rfl⟩ := List.mem_map.mp member
    exact .inl ⟨old, inside, (each old).1.symm⟩

theorem isTrimmed_name (name : Text) : IsTrimmed (rtrim (lpad name 5)) := by
  constructor
  · have short := (List.rdropWhile_prefix (· == 32) (lpad name 5)).length_le
    rwa [length_lpad] at short
  · exact List.rdropWhile_idempotent _ _

theorem learned_upsertSysinfo {info : List (Request × Option Int)} {row : Request × Option Int}
    (done : upsertSysinfo info db row = .ok db') :
    Learned db db' ∧ knownName db' (rtrim (lpad row.1.sourceName 5)) = true := by
  rcases upsertSysinfo_ok done with ⟨found, -, present, rfl⟩ | ⟨new, rfl, -, rfl⟩
  · have learned : Learned db (writeSysinfo db (fun si =>
        si.systemName = rtrim (lpad row.1.sourceName 5) && si.ipaddress = row.1.sourceIp)
        fun si => { si with systemCapacity := found.bind Prod.snd,
                            dataport := found.map fun ci => ci.1.rport }) :=
      learned_writeSysinfo db _ fun _ => ⟨rfl, rfl, rfl⟩
    obtain ⟨si, member, name, -⟩ := present
    exact ⟨learned, learned.known (knownName_iff.mpr ⟨si, member, name⟩)⟩
  · refine ⟨⟨?_, ?_⟩, ?_⟩
    · rw [(onlySysinfo_createComms _ _).2]
      exact fun si member => ⟨si, List.mem_append_left _ member, rfl, rfl, rfl⟩
    · rw [(onlySysinfo_createComms _ _).2]
      intro si member
      cases List.mem_append.mp member with
      | inl old => exact .inl ⟨si, old, rfl⟩
      | inr new =>
          rw [List.mem_singleton.mp new]
          exact .inr (isTrimmed_name _)
    · rw [knownName_iff, (onlySysinfo_createComms _ _).2]
      exact ⟨_, List.mem_append_right _ (List.mem_singleton_self _), rfl⟩

theorem learned_takeReplies (done : takeReplies db = .ok db') : Learned db db' := by
  obtain ⟨u, applied, rfl⟩ := takeReplies_ok done
  rcases applyReplies_ok applied with rfl | ⟨reply, -, -, rfl⟩
  · exact .of_eq rfl
  · refine Learned.trans (learned_writeSysinfo db waiting ?_) (.of_eq rfl)
    exact fun _ => ⟨rfl, rfl, rfl⟩

end Learned

section Paid

variable {a b c db db' : Db}

def Paid (db db' : Db) : Prop :=
  db'.noti1initialsender + db.jobScheduler.countP outgoing =
    db.noti1initialsender + db'.jobScheduler.countP outgoing

theorem Paid.trans (first : Paid a b) (second : Paid b c) : Paid a c := by
  unfold Paid at *
  omega

theorem outgoing_moved {old new : Job} (moved : Moved old new) : outgoing new = outgoing old := by
  have steps : Promotes every old.jstate new.jstate := moved.jstate.to_reflTransGen
  have same : new.jstate = .S5 ↔ old.jstate = .S5 := by
    constructor
    · exact fun state => Promotes.of_s5 (state ▸ steps)
    · exact fun state => (steps.stays (state ▸ fixed_s5 every)).trans state
  simp [outgoing, same]

theorem paid_of_advances (advances : Advances db db')
    (noti : db'.noti1initialsender = db.noti1initialsender +
      (db'.jobScheduler.drop db.jobScheduler.length).countP outgoing) : Paid db db' := by
  obtain ⟨-, change, fresh, moved, rows⟩ := advances
  have added : db'.jobScheduler.drop db.jobScheduler.length = fresh := by
    rw [rows, List.drop_left' (List.length_map _)]
  have same : (db.jobScheduler.map change).countP outgoing = db.jobScheduler.countP outgoing := by
    rw [List.countP_map]
    exact List.countP_congr fun job _ => by simp [outgoing_moved (moved job)]
  rw [added] at noti
  rw [Paid, rows, List.countP_append, same, noti]
  omega

def Counts (db db' : Db) : Prop :=
  db'.noti1initialsender = db.noti1initialsender +
    (db'.jobScheduler.drop db.jobScheduler.length).countP outgoing

theorem Counts.of_length (rows : db'.jobScheduler.length = db.jobScheduler.length)
    (noti : db'.noti1initialsender = db.noti1initialsender) : Counts db db' := by
  rw [Counts, ← rows, List.drop_length, noti]
  rfl

theorem counts_update (db : Db) (condition : Job → Bool) (change : Job → Job) :
    Counts db (db.updateJobs condition change) := .of_length (List.length_map _) rfl

theorem counts_updateM {condition : Job → Sql Bool} {change : Job → Job}
    (done : db.updateJobsM condition change = .ok db') : Counts db db' := by
  apply Counts.of_length
  · rw [(updateJobsM_ok done).2.2, List.length_map]
  · unfold Db.updateJobsM at done
    obtain ⟨chosen, -, rest⟩ := bind_ok.mp done
    rw [← pure_ok.mp rest]

theorem noti_insertJob {job : Job} (done : db.insertJob job = .ok db') :
    db'.noti1initialsender = db.noti1initialsender + [job].countP outgoing := by
  unfold Db.insertJob at done
  split at done
  · cases done
  · split at done
    · cases done
    · rw [← Except.ok.inj done]
      simp [outgoing, List.countP_cons]

theorem counts_insertJobs {rows : List Job} (done : db.insertJobs rows = .ok db') :
    Counts db db' := by
  have noti : db'.noti1initialsender = db.noti1initialsender + rows.countP outgoing := by
    unfold Db.insertJobs at done
    induction rows generalizing db with
    | nil =>
        rw [← pure_ok.mp done]
        rfl
    | cons job rest ih =>
        obtain ⟨u, head, tail⟩ := bind_ok.mp done
        have first := noti_insertJob head
        have others := ih tail
        have both : (job :: rest).countP outgoing = [job].countP outgoing + rest.countP outgoing := by
          rw [← List.countP_append, List.singleton_append]
        omega
  rw [Counts, (insertJobs_ok done).1, List.drop_left, noti]

theorem noti_createComms (db : Db) (row : SysInfo) :
    (db.createComms row).noti1initialsender = db.noti1initialsender := by
  unfold Db.createComms
  split
  · rfl
  · split
    · rfl
    · rfl

theorem noti_writeSysinfo (db : Db) (condition : SysInfo → Bool) (change : SysInfo → SysInfo) :
    (writeSysinfo db condition change).noti1initialsender = db.noti1initialsender := by
  unfold writeSysinfo
  generalize (db.sysinfo.filter condition).map change = written
  have each (u : Db) : (written.foldl Db.createComms u).noti1initialsender =
      u.noti1initialsender := by
    refine List.foldlRecOn (motive := fun v => v.noti1initialsender = u.noti1initialsender) written
      Db.createComms rfl fun v kept row _ => ?_
    exact (noti_createComms v row).trans kept
  exact each _

theorem noti_upsertSysinfo {info : List (Request × Option Int)} {row : Request × Option Int}
    (done : upsertSysinfo info db row = .ok db') :
    db'.noti1initialsender = db.noti1initialsender := by
  rcases upsertSysinfo_ok done with ⟨found, -, -, rfl⟩ | ⟨new, -, -, rfl⟩
  · exact noti_writeSysinfo db _ _
  · exact noti_createComms _ new

theorem noti_learnRequests (done : learnRequests db = .ok db') :
    db'.noti1initialsender = db.noti1initialsender := by
  unfold learnRequests at done
  obtain ⟨requests, -, rest⟩ := bind_ok.mp done
  obtain ⟨info, -, writes⟩ := bind_ok.mp rest
  exact foldlM_keeps (fun u => u.noti1initialsender = db.noti1initialsender)
    (fun _ _ _ _ kept moved => (noti_upsertSysinfo moved).trans kept) rfl writes

theorem noti_applyReplies (done : applyReplies db = .ok db') :
    db'.noti1initialsender = db.noti1initialsender := by
  rcases applyReplies_ok done with rfl | ⟨reply, -, -, rfl⟩
  · rfl
  · exact noti_writeSysinfo db _ _

theorem noti_registerConns (db : Db) :
    (registerConns db).noti1initialsender = db.noti1initialsender := by
  unfold registerConns
  refine List.foldlRecOn (motive := fun u => u.noti1initialsender = db.noti1initialsender) _
    registerConn rfl fun u kept address _ => ?_
  unfold registerConn
  split
  · exact kept
  · exact kept

theorem noti_insertComms {mtype : MType} {rows : List (Int × Option Int)}
    (done : rows.foldlM (insertComm mtype) db = .ok db') :
    db'.noti1initialsender = db.noti1initialsender := by
  refine foldlM_keeps (fun u => u.noti1initialsender = db.noti1initialsender)
    (fun u row v _ kept moved => ?_) rfl done
  unfold insertComm at moved
  split at moved
  · cases moved
  · split at moved
    · rw [← Except.ok.inj moved]
      exact kept
    · rw [← Except.ok.inj moved]
      exact kept

theorem statements_count {env : Env} {statement : Env → Db → Sql Db}
    (member : statement ∈ statements) (done : statement env db = .ok db') : Counts db db' := by
  simp only [statements, List.mem_cons, List.not_mem_nil, or_false] at member
  rcases member with rfl | rfl | rfl | rfl | rfl | rfl | rfl | rfl | rfl | rfl | rfl | rfl | rfl |
    rfl | rfl | rfl | rfl | rfl | rfl | rfl | rfl | rfl | rfl | rfl
  · exact pure_ok.mp done ▸ counts_update db _ _
  · exact pure_ok.mp done ▸ counts_update db _ _
  · exact pure_ok.mp done ▸ counts_update db _ _
  · exact pure_ok.mp done ▸ counts_update db _ _
  · exact pure_ok.mp done ▸ counts_update db _ _
  · rcases completeSplit_ok done with ⟨-, rfl⟩ | ⟨parents, -, rfl⟩
    · exact .of_length rfl rfl
    · exact counts_update db _ _
  · exact pure_ok.mp done ▸ counts_update db _ _
  · obtain ⟨rows, -, inserted⟩ := bind_ok.mp done
    exact counts_insertJobs inserted
  · exact pure_ok.mp done ▸ counts_update db _ _
  · exact .of_length (congrArg _ (learnRequests_frame done).jobScheduler) (noti_learnRequests done)
  · obtain ⟨received, -, rest⟩ := bind_ok.mp done
    obtain ⟨rows, -, inserted⟩ := bind_ok.mp rest
    exact counts_insertJobs inserted
  · exact pure_ok.mp done ▸ counts_update db _ _
  · exact .of_length (congrArg _ (applyReplies_frame done).jobScheduler) (noti_applyReplies done)
  · exact pure_ok.mp done ▸ counts_update db _ _
  · exact counts_updateM done
  · exact counts_updateM done
  · obtain ⟨rows, -, rest⟩ := bind_ok.mp done
    obtain ⟨jobs, -, inserted⟩ := bind_ok.mp rest
    exact counts_insertJobs inserted
  · obtain ⟨rows, -, rest⟩ := bind_ok.mp done
    obtain ⟨chunks, -, rest⟩ := bind_ok.mp rest
    obtain ⟨jobs, -, inserted⟩ := bind_ok.mp rest
    exact counts_insertJobs inserted
  · obtain ⟨rows, -, rest⟩ := bind_ok.mp done
    obtain ⟨jobs, -, inserted⟩ := bind_ok.mp rest
    exact counts_insertJobs inserted
  · exact pure_ok.mp done ▸ counts_update db _ _
  · exact pure_ok.mp done ▸ counts_update db _ _
  · refine pure_ok.mp done ▸ .of_length ?_ (noti_registerConns db)
    rw [(onlyConns_registerConns db).jobScheduler]
  · exact .of_length (congrArg _ (onlyConns_insertComms done).1.jobScheduler) (noti_insertComms done)
  · exact .of_length (congrArg _ (onlyConns_insertComms done).1.jobScheduler) (noti_insertComms done)

theorem paid_runJobs {env : Env} (done : runJobs env db = .ok db') : Paid db db' := by
  rw [← statements_run] at done
  refine foldlM_keeps (Paid db) (fun _ statement _ member kept moved => ?_) rfl done
  exact kept.trans (paid_of_advances (statements_advance member moved)
    (statements_count member moved))

end Paid

section Pass

variable {env : Env} {db db' : Db} {job : Job}

def IsRow (db : Db) (job : Job) : Prop := job.jstate = .S4 ∨ job.jstate = .S5 ∧ Addressed db job

theorem IsRow.fixed (row : IsRow db job) : Fixed job.jstate := by
  cases row with
  | inl message => exact message ▸ fixed_s4
  | inr request => exact request.1 ▸ fixed_s5

theorem IsRow.learned (row : IsRow db job) (learned : Learned db db') : IsRow db' job :=
  row.imp_right fun request => ⟨request.1, request.2.learned learned⟩

theorem length_consensusJob {id parent : Uuid} {type destination : Text} {capacity : Int}
    {own : SelfInfo} (cleanType : Clean type)
    (done : consensusJob env id type capacity own destination parent = .ok job) :
    job.jobdata.length = 147 := by
  obtain ⟨data, sealing, rest⟩ := bind_ok.mp done
  obtain rfl := pure_ok.mp rest
  have length := Made.length_createMessage cleanType sealing
  simp only [Made.paddedTo, List.length_append, length_lpad, List.length_nil] at length
  have short : 114 - headerGap own.systemName destination (ascii "5") + (11 + 11 + 11) + 0 ≤ 147 := by
    omega
  exact length.trans (max_eq_right short)

theorem rows_promote (done : promote env db = .ok db') :
    Evolves every (IsRow db') db db' ∧ Learned db db' := by
  obtain ⟨evolves, only⟩ := promote_ok (w := every) rfl done
  refine ⟨evolves.mono fun job row => ?_, .of_eq only.sysinfo⟩
  obtain ⟨i, si, present, js, -, -, made⟩ := row
  obtain ⟨-, state, -, -, destination⟩ := consensusJob_row made
  refine .inr ⟨state, length_consensusJob (by decide) made, .inl ?_⟩
  rw [destination]
  exact knownName_iff.mpr ⟨si, only.sysinfo ▸ present, rfl⟩

theorem length_sourceName {r : Request} (read : requestOf job = .ok r) :
    5 ≤ r.sourceName.length := by
  obtain ⟨capacity, -, rest⟩ := bind_ok.mp read
  obtain ⟨port, -, rest⟩ := bind_ok.mp rest
  obtain ⟨address, found, rest⟩ := bind_ok.mp rest
  obtain rfl := pure_ok.mp rest
  have long : 137 ≤ job.jobdata.length := by
    by_contra short
    have nothing : addressField job.jobdata = [] := by
      simp [addressField, substr, encode, List.drop_eq_nil_of_le (show job.jobdata.length ≤ 136 by omega)]
    rw [nothing] at found
    cases found
  have whole := length_le_encode (substr job.jobdata 74 5)
  have width : (substr job.jobdata 74 5).length = 5 := by
    simp only [substr, List.length_take, List.length_drop]
    omega
  exact width.symm.trans_le whole

theorem known_source {r : Request} {info : List (Request × Option Int)} {capacity : Option Int}
    (read : requestOf job = .ok r) (written : upsertSysinfo info db (r, capacity) = .ok db') :
    knownName db' r.sourceName = true ∨ ¬ IsTrimmed r.sourceName := by
  rw [or_iff_not_imp_right, not_not]
  intro trimmed
  have exact : r.sourceName.length = 5 := le_antisymm trimmed.1 (length_sourceName read)
  have known := (learned_upsertSysinfo written).2
  rwa [lpad_of_length exact, trimmed.2] at known

theorem rows_answerRequests (done : answerRequests env db = .ok db') :
    Evolves every (IsRow db') db db' ∧ Learned db db' := by
  rcases answerRequests_ok done with ⟨-, rfl⟩ | ⟨request, r, reply, u, v, -, read, written, made,
    inserted, rfl⟩
  · exact ⟨evolves_finishPending "4" db, .of_eq rfl⟩
  · have rows : (finishPending "4" v).sysinfo = u.sysinfo := (insertJob_ok inserted).2.1.sysinfo
    obtain ⟨-, state, -, -, destination⟩ := consensusJob_row made
    have source : r.sourceName = messageSource request.jobdata := by
      obtain ⟨_, -, rest⟩ := bind_ok.mp read
      obtain ⟨_, -, rest⟩ := bind_ok.mp rest
      obtain ⟨_, -, rest⟩ := bind_ok.mp rest
      rw [← pure_ok.mp rest]
    have addressed : Addressed u reply := by
      refine ⟨length_consensusJob (by decide) made, ?_⟩
      rw [destination, ← source]
      exact known_source read written
    have row : IsRow (finishPending "4" v) reply := .inr ⟨state, addressed.learned (.of_eq rows)⟩
    have first : Evolves every (IsRow (finishPending "4" v)) db u :=
      .of_eq (upsertSysinfo_frame written).jobScheduler
    have second : Evolves every (IsRow (finishPending "4" v)) u v := by
      refine ⟨keys_insertJob inserted, id, [reply], JobKept.refl, ?_, ?_⟩
      · rw [(insertJob_ok inserted).1, List.map_id]
      · exact fun job single => List.mem_singleton.mp single ▸ row
    constructor
    · exact (first.trans (fun _ => IsRow.fixed) second).trans (fun _ => IsRow.fixed)
        (evolves_finishPending "4" v)
    · exact (learned_upsertSysinfo written).1.trans (.of_eq rows)

theorem rows_runJobs (done : runJobs env db = .ok db') :
    Evolves every (IsRow db') db db' ∧ Learned db db' := by
  obtain ⟨a, promoted, rest⟩ := bind_ok.mp done
  obtain ⟨b, answered, rest⟩ := bind_ok.mp rest
  obtain ⟨c, replied, rest⟩ := bind_ok.mp rest
  obtain ⟨first, learnedA⟩ := rows_promote promoted
  obtain ⟨second, learnedB⟩ := rows_answerRequests answered
  obtain ⟨third, rows, -⟩ := finishPass_ok (w := every) rfl replied rest
  have learnedC : Learned b db' := (learned_takeReplies replied).trans (.of_eq rows)
  have message (job : Job) (row : IsMessageRow job) : IsRow db' job := .inl row.jstate
  have early := first.mono fun _ row => (row.learned learnedB).learned learnedC
  have middle := second.mono fun _ row => row.learned learnedC
  constructor
  · exact (early.trans (fun _ => IsRow.fixed) middle).trans (fun _ => IsRow.fixed)
      (third.mono message)
  · exact (learnedA.trans learnedB).trans learnedC

end Pass

/-- What an operation does about the messages in S-5: each that becomes wanted is announced. -/
structure Posts (db db' : Db) : Prop where
  posted : Posted db → Posted db'
  counted : Posted db → wanted db' + db.noti1initialsender ≤ wanted db + db'.noti1initialsender
  learned : Learned db db'

section Posts

variable {db db' : Db} {op : Operation} {change : Job → Job} {fresh : List Job}

def Spares (change : Job → Job) : Prop :=
  ∀ job, (change job).jstate = .S5 → job.jstate = .S5 ∧ (change job).jobdata = job.jobdata ∧
    (change job).jdestination = job.jdestination

theorem Posts.of_rows (rows : db'.jobScheduler = db.jobScheduler.map change ++ fresh)
    (spares : Spares change) (added : ∀ job ∈ fresh, job.jstate = .S5 → Addressed db' job)
    (noti : db.noti1initialsender + fresh.countP outgoing ≤ db'.noti1initialsender)
    (learned : Learned db db') : Posts db db' := by
  refine ⟨fun posted js member state => ?_, fun posted => ?_, learned⟩
  · rw [rows] at member
    cases List.mem_append.mp member with
    | inr new => exact added js new state
    | inl old =>
        obtain ⟨job, inside, rfl⟩ := List.mem_map.mp old
        obtain ⟨before, data, destination⟩ := spares job state
        have addressed := (posted job inside before).learned learned
        exact ⟨data ▸ addressed.length, destination ▸ addressed.destination⟩
  · have old : (db.jobScheduler.map change).countP
        (fun js => outgoing js && knownName db' js.jdestination) ≤ wanted db := by
      rw [List.countP_map]
      apply List.countP_mono_left
      intro job inside test
      simp only [Function.comp_apply, outgoing, Bool.and_eq_true, decide_eq_true_eq] at test ⊢
      obtain ⟨before, -, destination⟩ := spares job test.1
      exact ⟨before, (posted job inside before).known learned (destination ▸ test.2)⟩
    have new : fresh.countP (fun js => outgoing js && knownName db' js.jdestination) ≤
        fresh.countP outgoing := by
      apply List.countP_mono_left
      intro job _ test
      exact (Bool.and_eq_true _ _ ▸ test).1
    have all : wanted db' = _ := congrArg (List.countP _) rows
    rw [List.countP_append] at all
    omega

theorem posts_map (rows : db'.jobScheduler = db.jobScheduler.map change) (spares : Spares change)
    (noti : db'.noti1initialsender = db.noti1initialsender) (same : db'.sysinfo = db.sysinfo) :
    Posts db db' :=
  .of_rows (rows.trans (List.append_nil _).symm) spares nofun noti.ge (.of_eq same)

theorem spares_id : Spares id := fun _ state => ⟨state, rfl, rfl⟩

theorem posts_same (rows : db'.jobScheduler = db.jobScheduler)
    (noti : db'.noti1initialsender = db.noti1initialsender) (same : db'.sysinfo = db.sysinfo) :
    Posts db db' := posts_map (rows.trans (List.map_id _).symm) spares_id noti same

theorem posts_update (condition : Job → Bool) (spares : Spares change) :
    Posts db (db.updateJobs condition change) := by
  refine posts_map rfl (fun job state => ?_) rfl rfl
  split at state
  · next chosen =>
      rw [if_pos chosen]
      exact spares job state
  · next other =>
      rw [if_neg other]
      exact ⟨state, rfl, rfl⟩

theorem posts_insertJob {job : Job} (done : db.insertJob job = .ok db')
    (other : job.jstate ≠ .S5) : Posts db db' := by
  obtain ⟨rows, only, -⟩ := insertJob_ok done
  have noti := noti_insertJob done
  have added : db'.jobScheduler = db.jobScheduler.map id ++ [job] := by rw [rows, List.map_id]
  apply Posts.of_rows added
  · exact spares_id
  · exact fun js single state => absurd (List.mem_singleton.mp single ▸ state) other
  · exact noti.ge
  · exact .of_eq only.sysinfo

theorem posts_runJobs {env : Env} (done : runJobs env db = .ok db') : Posts db db' := by
  obtain ⟨⟨-, change, fresh, kept, rows, each⟩, learned⟩ := rows_runJobs done
  have paid := paid_runJobs done
  have fixed (job : Job) : (change job).jstate = .S5 ↔ job.jstate = .S5 := by
    constructor
    · exact fun state => Promotes.of_s5 (state ▸ (kept job).jstate)
    · intro state
      rwa [(kept job).fixed (state ▸ fixed_s5)]
  have same : (db.jobScheduler.map change).countP outgoing = db.jobScheduler.countP outgoing := by
    rw [List.countP_map]
    exact List.countP_congr fun job _ => by simp [outgoing, fixed job]
  refine .of_rows rows (fun job state => ?_) (fun job member state => ?_) ?_ learned
  · have before := (fixed job).mp state
    rw [(kept job).fixed (before ▸ fixed_s5)]
    exact ⟨before, rfl, rfl⟩
  · cases each job member with
    | inl message => rw [message] at state; cases state
    | inr row => exact row.2
  · rw [Paid, rows, List.countP_append, same] at paid
    omega

theorem posts_attempt {done : Sql Db} (each : ∀ u, done = .ok u → Posts db u) :
    Posts db (db.attempt done) := by
  rcases Db.attempt_cases db done with same | ⟨u, ok, same⟩
  · rw [same]
    exact posts_same rfl rfl rfl
  · rw [same]
    exact each u ok

theorem posts_perform (step : db.perform op = some db') : Posts db db' := by
  cases op with
  | runJobs env => exact Option.some.inj step ▸ posts_attempt fun _ => posts_runJobs
  | importFile file =>
      refine Option.some.inj step ▸ posts_attempt fun u done => ?_
      exact importFile_ok done ▸ posts_same rfl rfl rfl
  | sendFile id fileName destination =>
      refine Option.some.inj step ▸ posts_attempt fun u done => ?_
      unfold Db.sendFile at done
      split at done
      · obtain ⟨jobdata, -, rest⟩ := bind_ok.mp done
        obtain ⟨top, -, -, inserted⟩ := insertUnderRoot_ok rest
        exact posts_insertJob inserted nofun
      · exact pure_ok.mp done ▸ posts_same rfl rfl rfl
  | updateJobPriority id priority =>
      exact Option.some.inj step ▸ posts_update _ fun _ state => ⟨state, rfl, rfl⟩
  | storeData id fd data =>
      refine Option.some.inj step ▸ posts_attempt fun u done => ?_
      obtain ⟨top, -, -, inserted⟩ := insertUnderRoot_ok done
      exact posts_insertJob inserted nofun
  | retrieve sc job =>
      simp only [Db.perform] at step
      split at step
      · exact Option.some.inj step ▸ posts_update _ fun _ state => by cases state
      · cases step
  | updateStatus id status =>
      refine Option.some.inj step ▸ posts_update _ fun job state => ?_
      dsimp only at state
      split at state
      · cases state
      · cases state
  | updateConns ipaddress fd status => exact Option.some.inj step ▸ posts_same rfl rfl rfl
  | updateComms scommid => exact Option.some.inj step ▸ posts_same rfl rfl rfl
  | deleteComms scommid => exact Option.some.inj step ▸ posts_same rfl rfl rfl
  | getcomms rcomid =>
      obtain ⟨row, -, -, rfl⟩ := Db.perform_getcomms step
      exact posts_same rfl rfl rfl
  | insertConns fd ipaddr status =>
      obtain ⟨rows, same⟩ := Db.rInsertConns_frame db fd ipaddr status
      exact Option.some.inj step ▸ same ▸ posts_same rfl rfl rfl

end Posts

end Mailed

end FileSharing
