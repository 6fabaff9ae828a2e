import FileSharing.Library.Overlay
import FileSharing.Database.Advance
import FileSharing.Sender.Conservation

/-! The programs of one system, statement by statement, on one database at READ COMMITTED:
`run_jobs` and `give_data_to_sender` are transactions of several statements, and the writes
of one program to `job_scheduler` wait for the rows that another has written. -/

namespace FileSharing

open Library

namespace Transactions

/-- The transaction of `run_jobs`: the statements to come, and what those before wrote. It
alone writes `sysinfo`, and into the three tables after it only inserts. -/
structure Pass where
  env : Env
  rest : List (Env → Db → Sql Db)
  jobs : List Job
  sysinfo : List SysInfo
  receiversComms : List ReceiversComm
  sendingConns : List SendingConn
  sendersComms : List SendersComm
  noti1sender : Nat
  noti1receiver : Nat
  noti1initialsender : Nat

def Pass.start (env : Env) (db : Db) : Pass :=
  ⟨env, RunJobs.statements, [], db.sysinfo, [], [], [], 0, 0, 0⟩

/-- What a statement of the transaction sees when `db` is committed. -/
def Pass.view (p : Pass) (db : Db) : Db := { db with
  jobScheduler := overlay Job.jobid db.jobScheduler p.jobs
  sysinfo := p.sysinfo
  receiversComms := db.receiversComms ++ p.receiversComms
  sendingConns := db.sendingConns ++ p.sendingConns
  sendersComms := db.sendersComms ++ p.sendersComms
  noti1sender := db.noti1sender + p.noti1sender
  noti1receiver := db.noti1receiver + p.noti1receiver
  noti1initialsender := db.noti1initialsender + p.noti1initialsender }

def Pass.wrote (p : Pass) (rest : List (Env → Db → Sql Db)) (seen after : Db) : Pass where
  env := p.env
  rest := rest
  jobs := written Job.jobid p.jobs seen.jobScheduler after.jobScheduler
  sysinfo := after.sysinfo
  receiversComms := p.receiversComms ++ after.receiversComms.drop seen.receiversComms.length
  sendingConns := p.sendingConns ++ after.sendingConns.drop seen.sendingConns.length
  sendersComms := p.sendersComms ++ after.sendersComms.drop seen.sendersComms.length
  noti1sender := p.noti1sender + (after.noti1sender - seen.noti1sender)
  noti1receiver := p.noti1receiver + (after.noti1receiver - seen.noti1receiver)
  noti1initialsender :=
    p.noti1initialsender + (after.noti1initialsender - seen.noti1initialsender)

local instance (priority := high) decidableInfo (row : SysInfo × Job) (rows : List (SysInfo × Job)) :
    Decidable (row ∈ rows) :=
  List.instDecidableMemOfLawfulBEq row rows

structure Giving where
  idx : Nat
  sc : SendingConn
  js : Job
  marked : Bool

/-- `side.db` is what is committed; `taken` is the job whose status `initial_sender` owes. -/
structure State where
  side : SenderSide.State
  pass : Option Pass
  giving : Option Giving
  taken : Option Uuid

inductive Action where
  | side (a : SenderSide.Action)
  | drop
  | select (choice : Nat)
  | mark
  | commitGiving
  | rollbackGiving
  | beginPass (env : Env)
  | statement
  | commitPass
  | rollbackPass
  | take (si : SysInfo) (js : Job)
  | report (status : Int)
  | giveUp
  | other (op : Operation)

def State.db (s : State) : Db := s.side.db

def State.passIds (s : State) : List Uuid :=
  match s.pass with
  | some p => p.jobs.map Job.jobid
  | none => []

def State.markedIds (s : State) : List Uuid :=
  match s.giving with
  | some g => if g.marked then [g.js.jobid] else []
  | none => []

def rowsOf (db : Db) (id : Uuid) : List Job := db.jobScheduler.filter fun job => job.jobid = id

/-- A statement waits as long as another transaction has written a row that it writes. -/
def waits (ids : List Uuid) (db db' : Db) : Bool := ids.any fun id => rowsOf db id ≠ rowsOf db' id

def commit (s : State) (side : SenderSide.State) : Option State :=
  if waits (s.passIds ++ s.markedIds) s.db side.db then none else some { s with side := side }

/-- `giveData` is the transaction below, and `database` the other programs; `sender` waits
for the lock of the data block that the transaction holds. -/
def alone (s : State) : SenderSide.Action → Bool
  | .giveData _ => false
  | .database _ => false
  | .getData => s.giving.isNone
  | _ => true

def byOthers : Operation → Bool
  | .importFile _ => true
  | .sendFile _ _ _ => true
  | .updateJobPriority _ _ => true
  | .storeData _ _ _ => true
  | .getcomms _ => true
  | .insertConns _ _ _ => true
  | _ => false

/-- `store_comms_into_database` failed three times. -/
def drop (side : SenderSide.State) : Option SenderSide.State :=
  match side.processorS with
  | .reading => (side.comms.getSubblock true 2).map fun idx =>
      { side with comms := side.comms.toggleBit idx, processorS := .commanding }
  | .deleting idx _ =>
      some { side with comms := side.comms.toggleBit idx, processorS := .commanding }
  | _ => none

def rest (s : State) : State := { s with
  side := { s.side with processorS := .waiting }
  giving := none }

/-- `BEGIN`, `s_get_info` and `s_get_data`. -/
def select (s : State) (choice : Nat) : Option State :=
  match s.side.processorS, s.giving, s.side.datas.getSubblock false 3 with
  | .giving, none, none => some (rest s)
  | .giving, none, some idx => (SenderSide.firstInfo s.db choice).map fun found =>
      match found with
      | none => rest s
      | some (sc, js) => { s with giving := some ⟨idx, sc, js, false⟩ }
  | _, _, _ => none

/-- `s_update_job_status1`. -/
def mark (s : State) (g : Giving) : Option State :=
  if g.marked || g.js.jobid ∈ s.passIds then none
  else some { s with giving := some { g with marked := true } }

def commitGiving (s : State) (g : Giving) : Option State :=
  if g.marked then some { s with
    side := { s.side with
      datas := s.side.datas.write g.idx (SenderSide.sendMessageOf g.sc g.js)
      semLockSigs := s.side.semLockSigs + 1
      processorS := .waiting
      db := s.db.appendW g.js.jobid }
    giving := none }
  else none

/-- A statement that raises ends the transaction; a sequence is not rolled back. -/
def statement (s : State) (p : Pass) : Option State :=
  match p.rest with
  | [] => none
  | next :: rest =>
      match next p.env (p.view s.db) with
      | .error _ => some { s with pass := none }
      | .ok after =>
          if waits s.markedIds (p.view s.db) after then none
          else some { s with
            side := { s.side with
              db := { s.db with rcomidSeq := after.rcomidSeq, scommidSeq := after.scommidSeq } }
            pass := some (p.wrote rest (p.view s.db) after) }

def commitPass (s : State) (p : Pass) : Option State :=
  if p.rest.isEmpty then some { s with
    side := { s.side with db := p.view s.db }
    pass := none }
  else none

def step (s : State) : Action → Option State
  | .side a =>
      if alone s a then (SenderSide.step s.side a).bind (commit s) else none
  | .drop => (drop s.side).bind (commit s)
  | .select choice => select s choice
  | .mark => s.giving.bind (mark s)
  | .commitGiving => s.giving.bind (commitGiving s)
  | .rollbackGiving => s.giving.map fun _ => rest s
  | .beginPass env =>
      if s.pass.isNone then some { s with pass := some (.start env s.db) } else none
  | .statement => s.pass.bind (statement s)
  | .commitPass => s.pass.bind (commitPass s)
  | .rollbackPass => s.pass.map fun _ => { s with pass := none }
  | .take si js =>
      if s.taken.isNone ∧ (si, js) ∈ s.db.isGetInfo then some { s with taken := some js.jobid }
      else none
  | .report status => s.taken.bind fun id =>
      commit { s with taken := none } { s.side with db := s.db.updateStatus id status }
  | .giveUp => s.taken.map fun _ => { s with taken := none }
  | .other op =>
      if byOthers op then (s.db.perform op).bind fun db => commit s { s.side with db := db }
      else none

def handed (s : State) : Action → List Uuid
  | .commitGiving =>
      match s.giving with
      | some g => if g.marked then [g.js.jobid] else []
      | none => []
  | _ => []

/-- The moves of a job's state. -/
inductive Edge : JState → JState → Prop
  | accept : Edge .N1 .N2
  | reject : Edge .N1 .D
  | arrive : Edge .N2 .N3
  | forward : Edge .N2 .S1
  | identify : Edge .N3 .N4
  | answer : Edge .N4 .C
  | start : Edge .S .S1
  | split : Edge .S1 .S2
  | single : Edge .S1 .S3
  | awaitSplit : Edge .S2 .S2W
  | awaitSingle : Edge .S3 .S3W
  | completeSplit : Edge .S2W .C
  | completeSingle : Edge .S3W .C
  | hand : Edge .S4 .S4W
  | sent : Edge .S4W .C
  | unsent : Edge .S4W .D
  | requested : Edge .S5 .C
  | unrequested : Edge .S5 .D

abbrev Path : JState → JState → Prop := Relation.ReflTransGen Edge

def Follows (R : JState → JState → Prop) (db db' : Db) : Prop :=
  ∀ job ∈ db.jobScheduler, ∃ row ∈ db'.jobScheduler,
    row.jobid = job.jobid ∧ R job.jstate row.jstate

section Follows

variable {R Q : JState → JState → Prop} {a b db db' : Db}

theorem Follows.mono (follows : Follows R db db') (weaker : ∀ s t, R s t → Q s t) :
    Follows Q db db' := by
  intro job member
  obtain ⟨row, inside, same, moved⟩ := follows job member
  exact ⟨row, inside, same, weaker _ _ moved⟩

theorem Follows.refl (refl : ∀ s, R s s) (db : Db) : Follows R db db :=
  fun job member => ⟨job, member, rfl, refl job.jstate⟩

theorem Follows.of_eq (refl : ∀ s, R s s) (same : db'.jobScheduler = db.jobScheduler) :
    Follows R db db' :=
  fun job member => ⟨job, same ▸ member, rfl, refl job.jstate⟩

theorem Follows.trans (trans : ∀ s t u, R s t → R t u → R s u) (first : Follows R a b)
    (second : Follows R b db) : Follows R a db := by
  intro job member
  obtain ⟨middle, inside, same, moved⟩ := first job member
  obtain ⟨row, present, equal, later⟩ := second middle inside
  exact ⟨row, present, equal.trans same, trans _ _ _ moved later⟩

theorem Follows.map {change : Job → Job} {fresh : List Job}
    (rows : db'.jobScheduler = db.jobScheduler.map change ++ fresh)
    (each : ∀ job ∈ db.jobScheduler,
      (change job).jobid = job.jobid ∧ R job.jstate (change job).jstate) : Follows R db db' := by
  intro job member
  refine ⟨change job, ?_, each job member⟩
  rw [rows]
  exact List.mem_append_left fresh (List.mem_map_of_mem member)

theorem Follows.jobids (follows : Follows R db db') : db.jobids ⊆ db'.jobids := by
  intro id member
  obtain ⟨job, inside, rfl⟩ := List.mem_map.mp member
  obtain ⟨row, present, same, -⟩ := follows job inside
  exact List.mem_map.mpr ⟨row, present, same⟩

def Holds (db : Db) (id : Uuid) (s : JState) : Prop :=
  ∃ job ∈ db.jobScheduler, job.jobid = id ∧ job.jstate = s

theorem Follows.holds (follows : Follows R db db') {s : JState} (stays : ∀ t, R s t → t = s)
    {id : Uuid} (holds : Holds db id s) : Holds db' id s := by
  obtain ⟨job, member, same, state⟩ := holds
  obtain ⟨row, present, equal, moved⟩ := follows job member
  exact ⟨row, present, equal.trans same, stays _ (state ▸ moved)⟩

def Only (s : JState) (target : JState → Prop) (before after : JState) : Prop :=
  after = before ∨ before = s ∧ target after

theorem follows_one (keys : db.Keys) {id : Uuid} {s : JState} {target : JState → Prop}
    (holds : Holds db id s) {change : Job → Job}
    (kept : ∀ job : Job, (change job).jobid = job.jobid)
    (moved : ∀ job : Job, job.jstate = s → target (change job).jstate) :
    Follows (Only s target) db (db.updateJobs (fun job => job.jobid = id) change) := by
  apply Follows.map (List.append_nil _).symm
  intro job member
  split
  · next chosen =>
      obtain ⟨row, inside, same, state⟩ := holds
      have equal : job.jobid = row.jobid := (by simpa using chosen : job.jobid = id).trans same.symm
      have whole : job = row := List.inj_on_of_nodup_map keys.jobids member inside equal
      exact ⟨kept job, .inr ⟨whole ▸ state, moved job (whole ▸ state)⟩⟩
  · exact ⟨rfl, .inl rfl⟩

def Final (s : JState) : Prop := s = .C ∨ s = .D

theorem follows_updateStatus (keys : db.Keys) {id : Uuid} {s : JState} (holds : Holds db id s)
    (status : Int) : Follows (Only s Final) db (db.updateStatus id status) := by
  apply follows_one keys holds
  · exact fun _ => rfl
  · intro job _
    dsimp only
    split
    · exact .inl rfl
    · exact .inr rfl

theorem follows_appendW (keys : db.Keys) {id : Uuid} (holds : Holds db id .S4) :
    Follows (Only .S4 (· = .S4W)) db (db.appendW id) := by
  apply follows_one keys holds
  · exact fun _ => rfl
  · exact fun job state => congrArg JState.W state

theorem follows_others {op : Operation} (other : byOthers op = true)
    (done : db.perform op = some db') : Follows Eq db db' := by
  have attempt {result : Sql Db} (each : ∀ u, result = .ok u → Follows Eq db u) :
      Follows Eq db (db.attempt result) := by
    rcases Db.attempt_cases db result with same | ⟨u, ok, same⟩
    · rw [same]
      exact .refl (fun _ => rfl) db
    · rw [same]
      exact each u ok
  have append {u : Db} {rows : List Job} (appended : u.jobScheduler = db.jobScheduler ++ rows) :
      Follows Eq db u := by
    have rewritten : u.jobScheduler = db.jobScheduler.map id ++ rows := by
      rw [appended, List.map_id]
    exact Follows.map rewritten fun _ _ => ⟨rfl, rfl⟩
  cases op with
  | importFile file =>
      refine Option.some.inj done ▸ attempt fun u ok => .of_eq (fun _ => rfl) ?_
      rw [importFile_ok ok]
  | sendFile id fileName destination =>
      refine Option.some.inj done ▸ attempt fun u ok => ?_
      rcases (sendFile_ok ok).2 with same | ⟨job, appended, -⟩
      · exact .of_eq (fun _ => rfl) same
      · exact append appended
  | updateJobPriority id priority =>
      refine Option.some.inj done ▸ Follows.map (List.append_nil _).symm fun job _ => ?_
      split
      · exact ⟨rfl, rfl⟩
      · exact ⟨rfl, rfl⟩
  | storeData id fd data =>
      refine Option.some.inj done ▸ attempt fun u ok => ?_
      obtain ⟨-, job, appended, -⟩ := storeData_ok ok
      exact append appended
  | getcomms rcomid =>
      obtain ⟨row, -, -, rfl⟩ := Db.perform_getcomms done
      exact .of_eq (fun _ => rfl) rfl
  | insertConns fd ipaddr status =>
      obtain ⟨rows, same⟩ := Db.rInsertConns_frame db fd ipaddr status
      exact Option.some.inj done ▸ .of_eq (fun _ => rfl) (by rw [same])
  | _ => cases other

end Follows

section Open

variable {db db' : Db} {p : Pass}

/-- What holds of the transaction of `run_jobs` between two statements. -/
structure Open (db : Db) (p : Pass) : Prop where
  rest : ∀ next ∈ p.rest, next ∈ RunJobs.statements
  jobids : (p.jobs.map Job.jobid).Nodup
  versions : ∀ job ∈ db.jobScheduler,
    Promotes every job.jstate (version Job.jobid p.jobs job).jstate
  parents : ∀ job ∈ p.jobs,
    job.jparentJobid ∈ db.jobids ∨ job.jparentJobid ∈ p.jobs.map Job.jobid

theorem mem_jobids_view {id : Uuid} :
    id ∈ (p.view db).jobids ↔ id ∈ db.jobids ∨ id ∈ p.jobs.map Job.jobid := mem_keys_overlay

theorem open_start (env : Env) (db : Db) : Open db (.start env db) := by
  refine ⟨fun _ member => member, List.nodup_nil, fun job _ => ?_, nofun⟩
  rw [version_unwritten (by simp [Pass.start])]

theorem keys_view (keys : db.Keys) (opened : Open db p) : (p.view db).Keys := by
  refine ⟨nodup_overlay keys.jobids opened.jobids, fun job member => mem_jobids_view.mpr ?_⟩
  rcases mem_overlay.mp member with ⟨row, inside, rfl⟩ | ⟨mine, -⟩
  · rcases version_cases Job.jobid p.jobs row with ⟨same, -⟩ | ⟨mine, -⟩
    · rw [same]
      exact .inl (keys.parents row inside)
    · exact opened.parents _ mine
  · exact opened.parents job mine

theorem follows_view (opened : Open db p) : Follows (Promotes every) db (p.view db) := by
  intro job member
  exact ⟨version Job.jobid p.jobs job, mem_overlay.mpr (.inl ⟨job, member, rfl⟩),
    key_version Job.jobid p.jobs job, opened.versions job member⟩

theorem not_waits {ids : List Uuid} (free : waits ids db db' = false) {id : Uuid}
    (member : id ∈ ids) : rowsOf db id = rowsOf db' id := by
  have none := List.any_eq_false.mp free id member
  simpa using none

theorem Open.commit {R : JState → JState → Prop} (opened : Open db p)
    (free : ∀ id ∈ p.jobs.map Job.jobid, rowsOf db id = rowsOf db' id)
    (follows : Follows R db db') : Open db' p := by
  refine ⟨opened.rest, opened.jobids, fun job member => ?_, fun job member => ?_⟩
  · by_cases mine : job.jobid ∈ p.jobs.map Job.jobid
    · have inside : job ∈ rowsOf db' job.jobid := List.mem_filter.mpr ⟨member, by simp⟩
      rw [← free _ mine] at inside
      exact opened.versions job (List.mem_of_mem_filter inside)
    · rw [version_unwritten mine]
  · exact (opened.parents job member).imp (fun known => follows.jobids known) id

theorem Follows.view {R : JState → JState → Prop} (refl : ∀ s, R s s)
    (free : ∀ id ∈ p.jobs.map Job.jobid, rowsOf db id = rowsOf db' id)
    (follows : Follows R db db') : Follows R (p.view db) (p.view db') := by
  have mem {db : Db} {row : Job} : row ∈ rowsOf db row.jobid ↔ row ∈ db.jobScheduler := by
    simp [rowsOf]
  intro job member
  rcases mem_overlay.mp member with ⟨row, inside, rfl⟩ | ⟨mine, absent⟩
  · by_cases wrote : row.jobid ∈ p.jobs.map Job.jobid
    · have same : row ∈ db'.jobScheduler := mem.mp (free _ wrote ▸ mem.mpr inside)
      exact ⟨_, mem_overlay.mpr (.inl ⟨row, same, rfl⟩), rfl, refl _⟩
    · obtain ⟨later, present, same, moved⟩ := follows row inside
      refine ⟨later, mem_overlay.mpr (.inl ⟨later, present, ?_⟩), ?_⟩
      · exact version_unwritten (same ▸ wrote)
      · rw [version_unwritten wrote]
        exact ⟨same, moved⟩
  · refine ⟨job, mem_overlay.mpr (.inr ⟨mine, fun known => absent ?_⟩), rfl, refl _⟩
    obtain ⟨row, present, same⟩ := List.mem_map.mp known
    have before : row ∈ rowsOf db job.jobid := by
      rw [free _ (List.mem_map_of_mem mine)]
      exact List.mem_filter.mpr ⟨present, by simpa using same⟩
    exact same ▸ List.mem_map_of_mem (List.mem_of_mem_filter before)

variable {after : Db} (keys : db.Keys) (opened : Open db p)
  (advances : Advances (p.view db) after) (same : db'.jobScheduler = db.jobScheduler)

include keys opened advances same

theorem wrote_jobs (rest : List (Env → Db → Sql Db)) :
    ((p.wrote rest (p.view db) after).view db').jobScheduler = after.jobScheduler := by
  obtain ⟨kept, change, fresh, each, rows⟩ := advances
  have whole := overlay_written rfl rows (fun job => (each job).jobid)
    (kept (keys_view keys opened)).jobids
  exact (congrArg (overlay Job.jobid · _) same).trans whole

theorem open_wrote {next : Env → Db → Sql Db} {rest : List (Env → Db → Sql Db)}
    (program : p.rest = next :: rest) : Open db' (p.wrote rest (p.view db) after) := by
  have seen := wrote_jobs keys opened advances same rest
  obtain ⟨kept, change, fresh, each, rows⟩ := advances
  have unique := kept (keys_view keys opened)
  refine ⟨fun statement member => ?_, nodup_written _ _ unique.jobids, fun job member => ?_,
    fun job member => ?_⟩
  · exact opened.rest statement (program ▸ List.mem_cons_of_mem next member)
  · have written := version_written rfl rows (fun job => (each job).jobid) unique.jobids
      (same ▸ member)
    have step := (each (version Job.jobid p.jobs job)).jstate.to_reflTransGen
    exact written ▸ (opened.versions job (same ▸ member)).trans step
  · have known := unique.parents job (List.mem_of_mem_filter member)
    rw [Db.jobids, ← seen] at known
    exact mem_jobids_view.mp known

end Open

structure Given (side : SenderSide.State) (g : Giving) : Prop where
  place : side.processorS = .giving
  found : side.datas.getSubblock false 3 = some g.idx
  ready : Holds side.db g.js.jobid .S4

structure Inv (s : State) : Prop where
  side : SenderSide.Inv s.side
  giving : ∀ g, s.giving = some g → Given s.side g
  marked : ∀ g, s.giving = some g → g.marked = true → g.js.jobid ∉ s.passIds
  taken : ∀ id, s.taken = some id → Holds s.db id .S5
  pass : ∀ p, s.pass = some p → Open s.db p

section Side

variable {s t : SenderSide.State} {a : SenderSide.Action}

theorem side_follows (inv : SenderSide.Inv s) (moves : SenderSide.Moves s a t)
    (noGive : ∀ choice, a ≠ .giveData choice) (noOther : ∀ op, a ≠ .database op) :
    Follows (Only .S4W Final) s.db t.db := by
  cases moves with
  | readMessage place found holds =>
      rename_i idx msgsts
      have inside := (Block.held_clear found holds).mem_iff.mpr List.mem_cons_self
      have member : msgsts.uuid ∈ s.places := by
        simp only [SenderSide.State.places, List.mem_append, List.mem_filterMap]
        exact .inr (.inr ⟨_, inside, rfl⟩)
      obtain ⟨job, present, state, same⟩ := SenderSide.mem_waitingIds.mp (inv.waits _ member)
      exact follows_updateStatus inv.keys ⟨job, present, same, state⟩ _
  | giveJob => exact absurd rfl (noGive _)
  | database => exact absurd rfl (noOther _)
  | _ => exact .of_eq (fun _ => .inl rfl) rfl

theorem side_given {g : Giving} (given : Given s g) (moves : SenderSide.Moves s a t)
    (noGive : ∀ choice, a ≠ .giveData choice) (noTake : a ≠ .getData)
    (ready : Holds t.db g.js.jobid .S4) : Given t g := by
  have other {place : SenderSide.ProcessorS} (here : s.processorS = place)
      (apart : place ≠ .giving) : False := apart (here.symm.trans given.place)
  cases moves with
  | waitSigps place => exact (other place nofun).elim
  | readNothing place => exact (other place nofun).elim
  | readConnection place => exact (other place nofun).elim
  | readMessage place => exact (other place nofun).elim
  | readOther place => exact (other place nofun).elim
  | deleteComms place => exact (other place nofun).elim
  | sendNothing place => exact (other place nofun).elim
  | sendCommand place => exact (other place nofun).elim
  | updateComms place => exact (other place nofun).elim
  | giveNothing => exact absurd rfl (noGive _)
  | giveJob => exact absurd rfl (noGive _)
  | getNoData => exact absurd rfl noTake
  | getData => exact absurd rfl noTake
  | getEmpty => exact absurd rfl noTake
  | _ => exact ⟨given.place, given.found, ready⟩

theorem side_commit {R : JState → JState → Prop} {db : Db} (inv : SenderSide.Inv s)
    (keys : db.Keys) (follows : Follows R s.db db) (stays : ∀ t, R .S4W t → t = .S4W) :
    SenderSide.Inv { s with db := db } := by
  refine ⟨?_, keys, fun id member => ?_, inv.nodup⟩
  · exact ⟨inv.shape.datas, inv.shape.comms, inv.shape.deleting, inv.shape.marking⟩
  · obtain ⟨job, present, state, same⟩ := SenderSide.mem_waitingIds.mp (inv.waits id member)
    obtain ⟨row, inside, equal, later⟩ := follows.holds stays ⟨job, present, same, state⟩
    exact SenderSide.mem_waitingIds.mpr ⟨row, inside, later, equal⟩

theorem side_place {place : SenderSide.ProcessorS} (inv : SenderSide.Inv s)
    (free : place.locksComms = false) : SenderSide.Inv { s with processorS := place } := by
  refine ⟨⟨inv.shape.datas, inv.shape.comms, fun idx scommid same => ?_, fun idx row same => ?_⟩,
    inv.keys, inv.waits, inv.nodup⟩
  · rw [show place = _ from same] at free
    cases free
  · rw [show place = _ from same] at free
    cases free

theorem side_clear {idx : Nat} (inv : SenderSide.Inv s)
    (found : s.comms.getSubblock true 2 = some idx) :
    SenderSide.Inv { s with comms := s.comms.toggleBit idx, processorS := .commanding } := by
  obtain ⟨record, holds⟩ := inv.shape.comms idx (Block.getSubblock_some found).2
  have moved := (Block.held_clear found holds).filterMap SenderSide.jobOf
  have fewer : (((s.comms.toggleBit idx).held 2).filterMap SenderSide.jobOf).Subperm
      ((s.comms.held 2).filterMap SenderSide.jobOf) := by
    refine List.Subperm.trans ?_ moved.symm.subperm
    rw [List.filterMap_cons]
    split
    · exact List.Subperm.refl _
    · exact (List.sublist_cons_self _ _).subperm
  have places : (SenderSide.State.places
      { s with comms := s.comms.toggleBit idx, processorS := .commanding }).Subperm s.places :=
    (List.subperm_append_left _).mpr ((List.subperm_append_left _).mpr fewer)
  refine ⟨⟨inv.shape.datas, ?_, nofun, nofun⟩, inv.keys, fun id member => ?_, ?_⟩
  · exact Block.filled_clear inv.shape.comms (Block.getSubblock_some found).2
  · exact inv.waits id (places.subset member)
  · obtain ⟨part, same, sub⟩ := places
    exact same.nodup_iff.mp (inv.nodup.sublist sub)

theorem side_drop (inv : SenderSide.Inv s) (done : drop s = some t) :
    SenderSide.Inv t ∧ t.db = s.db ∧ s.processorS ≠ .giving := by
  unfold drop at done
  split at done
  · next place =>
      obtain ⟨idx, found, rfl⟩ := Option.map_eq_some_iff.mp done
      exact ⟨side_clear inv found, rfl, by simp [place]⟩
  · next idx scommid place =>
      obtain rfl := Option.some.inj done
      exact ⟨side_clear inv (inv.shape.deleting _ _ place).1, rfl, by simp [place]⟩
  · cases done

theorem side_give {g : Giving} (inv : SenderSide.Inv s) (given : Given s g) :
    SenderSide.Inv { s with
      datas := s.datas.write g.idx (SenderSide.sendMessageOf g.sc g.js)
      semLockSigs := s.semLockSigs + 1
      processorS := .waiting
      db := s.db.appendW g.js.jobid } := by
  obtain ⟨job, member, same, state⟩ := given.ready
  have entered := SenderSide.waiting_enter inv.keys member state
  rw [same] at entered
  have moved := (Block.held_write (a := SenderSide.sendMessageOf g.sc g.js) given.found).map
    SendMessage.uuid
  have places : (SenderSide.State.places { s with
      datas := s.datas.write g.idx (SenderSide.sendMessageOf g.sc g.js)
      semLockSigs := s.semLockSigs + 1
      processorS := .waiting
      db := s.db.appendW g.js.jobid }).Perm (g.js.jobid :: s.places) := moved.append_right _
  refine ⟨⟨?_, inv.shape.comms, nofun, nofun⟩, Db.keys_update inv.keys fun _ => ⟨rfl, rfl⟩,
    fun id inside => ?_, places.nodup_iff.mpr (List.nodup_cons.mpr ⟨fun inside => ?_, inv.nodup⟩)⟩
  · exact Block.filled_write inv.shape.datas (Block.getSubblock_some given.found).2
  · rcases List.mem_cons.mp (places.mem_iff.mp inside) with rfl | old
    · exact entered.mem_iff.mpr List.mem_cons_self
    · exact entered.mem_iff.mpr (List.mem_cons_of_mem _ (inv.waits id old))
  · obtain ⟨row, present, waits, equal⟩ := SenderSide.mem_waitingIds.mp (inv.waits _ inside)
    obtain rfl := List.inj_on_of_nodup_map inv.keys.jobids present member (equal.trans same.symm)
    cases waits.symm.trans state

end Side

def Change : Action → JState → JState → Prop
  | .side _ => Only .S4W Final
  | .commitGiving => Only .S4 (· = .S4W)
  | .report _ => Only .S5 Final
  | .commitPass => Promotes every
  | _ => Eq

section Step

variable {s t : State} {a : Action} {p : Pass}

theorem free_pass {db : Db} (free : waits (s.passIds ++ s.markedIds) s.db db = false)
    (opened : s.pass = some p) : ∀ id ∈ p.jobs.map Job.jobid, rowsOf s.db id = rowsOf db id := by
  intro id member
  apply not_waits free
  have known : id ∈ s.passIds := by
    rw [State.passIds, opened]
    exact member
  exact List.mem_append_left _ known

theorem commit_some {side : SenderSide.State} (done : commit s side = some t) :
    waits (s.passIds ++ s.markedIds) s.db side.db = false ∧ t = { s with side := side } := by
  unfold commit at done
  split at done
  · cases done
  · next free => exact ⟨by simpa using free, (Option.some.inj done).symm⟩

theorem inv_commit {R : JState → JState → Prop} {side : SenderSide.State} (inv : Inv s)
    (good : SenderSide.Inv side) (follows : Follows R s.db side.db)
    (free : waits (s.passIds ++ s.markedIds) s.db side.db = false)
    (giving : ∀ g, s.giving = some g → Given side g)
    (taken : ∀ id, s.taken = some id → Holds side.db id .S5) : Inv { s with side := side } := by
  refine ⟨good, giving, inv.marked, taken, fun p opened => ?_⟩
  exact (inv.pass p opened).commit (free_pass free opened) follows

theorem only_ne {s u : JState} {target : JState → Prop} (other : u ≠ s) :
    ∀ t, Only s target u t → t = u := by
  intro t moved
  rcases moved with same | ⟨same, -⟩
  · exact same
  · exact absurd same other

theorem edge_of_promote {s t : JState} (step : Promote every s t) : Edge s t := by
  cases step with
  | accept => exact .accept
  | reject => exact .reject
  | arrive => exact .arrive
  | forward => exact .forward
  | identify => exact .identify
  | answer => exact .answer
  | start => exact .start
  | completeSingle => exact .completeSingle
  | completeSplit => exact .completeSplit
  | split => exact .split
  | single => exact .single
  | awaitSplit => exact .awaitSplit
  | awaitSingle => exact .awaitSingle

theorem edge_of_change {s t : JState} (other : a ≠ .commitPass) (moved : Change a s t) :
    Relation.ReflGen Edge s t := by
  cases a with
  | side =>
      rcases moved with rfl | ⟨rfl, rfl | rfl⟩
      · exact .refl
      · exact .single .sent
      · exact .single .unsent
  | commitGiving =>
      rcases moved with rfl | ⟨rfl, rfl⟩
      · exact .refl
      · exact .single .hand
  | report =>
      rcases moved with rfl | ⟨rfl, rfl | rfl⟩
      · exact .refl
      · exact .single .requested
      · exact .single .unrequested
  | commitPass => exact absurd rfl other
  | _ => exact moved ▸ .refl

theorem path_of_change {s t : JState} (moved : Change a s t) : Path s t := by
  by_cases commits : a = .commitPass
  · subst commits
    exact Relation.ReflTransGen.mono (fun _ _ => edge_of_promote) _ _ moved
  · exact (edge_of_change commits moved).to_reflTransGen

structure Steps (s : State) (a : Action) (t : State) : Prop where
  inv : Inv t
  follows : Follows (Change a) s.db t.db
  seen : ∀ p q, s.pass = some p → t.pass = some q →
    Follows (Relation.ReflGen Edge) (p.view s.db) (q.view t.db)

theorem Steps.commit {side : SenderSide.State} (inv : Inv { s with side := side })
    (other : a ≠ .commitPass) (follows : Follows (Change a) s.db side.db)
    (free : waits (s.passIds ++ s.markedIds) s.db side.db = false) :
    Steps s a { s with side := side } := by
  refine ⟨inv, follows, fun p q before after => ?_⟩
  obtain rfl := Option.some.inj (before.symm.trans after)
  exact (follows.mono fun _ _ => edge_of_change other).view (fun _ => .refl)
    (free_pass free before)

theorem Steps.still (inv : Inv t) (same : t.db = s.db) (pass : t.pass = s.pass)
    (refl : ∀ j, Change a j j) : Steps s a t := by
  refine ⟨inv, same ▸ .refl refl s.db, fun p q before after => ?_⟩
  rw [pass, before] at after
  rw [same, Option.some.inj after]
  exact .refl (fun _ => .refl) _

theorem side_steps {b : SenderSide.Action} (inv : Inv s) (done : step s (.side b) = some t) :
    Steps s (.side b) t := by
  simp only [step] at done
  split at done
  · next allowed =>
      obtain ⟨side, moved, committed⟩ := Option.bind_eq_some_iff.mp done
      obtain ⟨free, rfl⟩ := commit_some committed
      have moves := SenderSide.step_moves moved
      have noGive (choice : Nat) : b ≠ .giveData choice := by
        rintro rfl
        cases allowed
      have noOther (op : Operation) : b ≠ .database op := by
        rintro rfl
        cases allowed
      have follows := side_follows inv.side moves noGive noOther
      refine .commit (inv_commit inv (SenderSide.inv_step inv.side moves) follows free ?_ ?_)
        nofun follows free
      · intro g giving
        have noTake : b ≠ .getData := by
          rintro rfl
          simp [alone, giving] at allowed
        have given := inv.giving g giving
        exact side_given given moves noGive noTake
          (follows.holds (only_ne (by decide)) given.ready)
      · exact fun id taken => follows.holds (only_ne (by decide)) (inv.taken id taken)
  · cases done

theorem drop_steps (inv : Inv s) (done : step s .drop = some t) : Steps s .drop t := by
  obtain ⟨side, dropped, committed⟩ := Option.bind_eq_some_iff.mp done
  obtain ⟨free, rfl⟩ := commit_some committed
  obtain ⟨good, same, place⟩ := side_drop inv.side dropped
  have follows : Follows (Change .drop) s.db side.db := .of_eq (fun _ => rfl) (by rw [same]; rfl)
  refine .commit (inv_commit inv good follows free ?_ ?_) nofun follows free
  · exact fun g giving => absurd (inv.giving g giving).place place
  · intro id taken
    rw [same]
    exact inv.taken id taken

theorem inv_rest (inv : Inv s) : Inv (rest s) :=
  ⟨side_place inv.side rfl, nofun, nofun, inv.taken, inv.pass⟩

theorem select_steps {choice : Nat} (inv : Inv s) (done : select s choice = some t) :
    Steps s (.select choice) t := by
  unfold select at done
  split at done
  · obtain rfl := Option.some.inj done
    exact .still (inv_rest inv) rfl rfl fun _ => rfl
  · next place none found =>
      obtain ⟨row, first, rfl⟩ := Option.map_eq_some_iff.mp done
      cases row with
      | none => exact .still (inv_rest inv) rfl rfl fun _ => rfl
      | some row =>
          obtain ⟨-, member, state, -⟩ := Db.mem_sGetInfo.mp (SenderSide.firstInfo_mem first)
          refine .still ⟨inv.side, fun g same => ?_, fun g same marked => ?_, inv.taken, inv.pass⟩
            rfl rfl fun _ => rfl
          · obtain rfl := Option.some.inj same
            exact ⟨place, found, ⟨_, member, rfl, state⟩⟩
          · obtain rfl := Option.some.inj same
            cases marked
  · cases done

theorem mark_steps {g : Giving} (inv : Inv s) (giving : s.giving = some g)
    (done : mark s g = some t) : Steps s .mark t := by
  unfold mark at done
  split at done
  · cases done
  · next free =>
      obtain rfl := Option.some.inj done
      simp only [Bool.or_eq_true, decide_eq_true_eq, not_or] at free
      refine .still ⟨inv.side, fun g' same => ?_, fun g' same _ => ?_, inv.taken, inv.pass⟩
        rfl rfl fun _ => rfl
      · obtain rfl := Option.some.inj same
        have given := inv.giving g giving
        exact ⟨given.place, given.found, given.ready⟩
      · obtain rfl := Option.some.inj same
        exact free.2

theorem rows_update_ne {db : Db} {id other : Uuid} (apart : other ≠ id) (change : Job → Job)
    (kept : ∀ job, (change job).jobid = job.jobid) :
    rowsOf db other = rowsOf (db.updateJobs (fun job => job.jobid = id) change) other := by
  unfold rowsOf Db.updateJobs
  dsimp only
  induction db.jobScheduler with
  | nil => rfl
  | cons job rest ih =>
      rw [List.map_cons, List.filter_cons, List.filter_cons, ih]
      by_cases chosen : job.jobid = id
      · have no : job.jobid ≠ other := fun same => apart (same.symm.trans chosen)
        simp [chosen, kept, Ne.symm apart]
      · simp [chosen]

theorem commitGiving_steps {g : Giving} (inv : Inv s) (giving : s.giving = some g)
    (done : commitGiving s g = some t) : Steps s .commitGiving t := by
  unfold commitGiving at done
  split at done
  · next marked =>
      obtain rfl := Option.some.inj done
      have given := inv.giving g giving
      have follows := follows_appendW inv.side.keys given.ready
      have free (id : Uuid) (member : id ∈ s.passIds) :
          rowsOf s.db id = rowsOf (s.db.appendW g.js.jobid) id :=
        rows_update_ne (by
          rintro rfl
          exact inv.marked g giving marked member) _ fun _ => rfl
      have mine {p : Pass} (opened : s.pass = some p) {id : Uuid}
          (member : id ∈ p.jobs.map Job.jobid) : id ∈ s.passIds := by
        rw [State.passIds, opened]
        exact member
      refine ⟨⟨side_give inv.side given, nofun, nofun, fun id taken => ?_, fun p opened => ?_⟩,
        follows, fun p q before after => ?_⟩
      · exact follows.holds (only_ne (by decide)) (inv.taken id taken)
      · exact (inv.pass p opened).commit (fun id member => free id (mine opened member)) follows
      · obtain rfl := Option.some.inj (before.symm.trans after)
        have edges : Follows (Relation.ReflGen Edge) s.db (s.db.appendW g.js.jobid) :=
          follows.mono fun _ _ => edge_of_change (nofun : Action.commitGiving ≠ .commitPass)
        exact edges.view (fun _ => .refl) fun id member => free id (mine before member)
  · cases done

/-- The rows that a statement wrote are not the row that `processor_s` has marked. -/
theorem apart_wrote {after : Db} {rest : List (Env → Db → Sql Db)} {id : Uuid}
    (apart : id ∉ p.jobs.map Job.jobid) (free : rowsOf (p.view s.db) id = rowsOf after id) :
    id ∉ (p.wrote rest (p.view s.db) after).jobs.map Job.jobid := by
  intro member
  obtain ⟨row, inside, rfl⟩ := List.mem_map.mp member
  obtain ⟨present, test⟩ := List.mem_filter.mp inside
  simp only [Bool.or_eq_true, decide_eq_true_eq] at test
  rcases test with new | mine
  · have known : row ∈ rowsOf (p.view s.db) row.jobid := by
      rw [free]
      exact List.mem_filter.mpr ⟨present, by simp⟩
    exact new (List.mem_of_mem_filter known)
  · exact apart mine

theorem statement_steps (inv : Inv s) (opened : s.pass = some p)
    (done : statement s p = some t) : Steps s .statement t := by
  have holds := inv.pass p opened
  unfold statement at done
  split at done
  · cases done
  · next next rest program =>
      split at done
      · obtain rfl := Option.some.inj done
        have good : Inv { s with pass := none } := by
          refine ⟨inv.side, inv.giving, fun g _ _ => ?_, inv.taken, fun p opened => by cases opened⟩
          exact (List.not_mem_nil : g.js.jobid ∉ [])
        exact ⟨good, .refl (fun _ => rfl) s.db, fun p q before after => by cases after⟩
      · next after result =>
          split at done
          · cases done
          · next free =>
              obtain rfl := Option.some.inj done
              have advances := statements_advance
                (holds.rest next (program ▸ List.mem_cons_self)) result
              let db' : Db := { s.db with rcomidSeq := after.rcomidSeq, scommidSeq := after.scommidSeq }
              have stays : Follows Eq s.db db' := .of_eq (fun _ => rfl) rfl
              have clear : waits s.markedIds (p.view s.db) after = false := by simpa using free
              refine ⟨⟨?_, fun g giving => ?_, fun g giving marked => ?_, inv.taken,
                fun q wrote => ?_⟩, stays, fun q r before wrote => ?_⟩
              · exact side_commit inv.side (keys_same (rfl : _ = s.db.jobScheduler) inv.side.keys)
                  stays fun _ same => same.symm
              · have given := inv.giving g giving
                exact ⟨given.place, given.found, given.ready⟩
              · have apart := inv.marked g giving marked
                have mine : g.js.jobid ∈ s.markedIds := by
                  rw [State.markedIds, show s.giving = some g from giving]
                  simp [marked]
                rw [State.passIds, opened] at apart
                exact apart_wrote apart (not_waits clear mine)
              · obtain rfl := Option.some.inj wrote
                exact open_wrote inv.side.keys holds advances
                  (rfl : db'.jobScheduler = s.db.jobScheduler) program
              · obtain rfl := Option.some.inj wrote
                obtain rfl := Option.some.inj (opened.symm.trans before)
                have same := wrote_jobs inv.side.keys holds advances
                  (rfl : db'.jobScheduler = s.db.jobScheduler) rest
                obtain ⟨-, change, fresh, each, rows⟩ := advances
                refine Follows.map (same.trans rows) fun job _ => ⟨(each job).jobid, ?_⟩
                exact (each job).jstate.mono fun _ _ => edge_of_promote

theorem stays_promotes {s : JState} (fixed : Fixed s) : ∀ t, Promotes every s t → t = s :=
  fun _ steps => steps.stays (fixed every)

theorem commitPass_steps (inv : Inv s) (opened : s.pass = some p)
    (done : commitPass s p = some t) : Steps s .commitPass t := by
  have holds := inv.pass p opened
  have follows := follows_view holds
  unfold commitPass at done
  split at done
  · obtain rfl := Option.some.inj done
    refine ⟨⟨?_, fun g giving => ?_, fun g _ _ => (List.not_mem_nil : g.js.jobid ∉ []),
      fun id taken => ?_, nofun⟩, follows, fun p q before after => nomatch after⟩
    · exact side_commit inv.side (keys_view inv.side.keys holds) follows (stays_promotes fixed_s4w)
    · have given := inv.giving g giving
      exact ⟨given.place, given.found, follows.holds (stays_promotes fixed_s4) given.ready⟩
    · exact follows.holds (stays_promotes fixed_s5) (inv.taken id taken)
  · cases done

theorem report_steps {id : Uuid} {status : Int} (inv : Inv s) (taken : s.taken = some id)
    (done : commit { s with taken := none } { s.side with db := s.db.updateStatus id status } =
      some t) : Steps s (.report status) t := by
  obtain ⟨free, rfl⟩ := commit_some done
  have follows := follows_updateStatus inv.side.keys (inv.taken id taken) status
  have settled : Inv { s with taken := none } :=
    ⟨inv.side, inv.giving, inv.marked, nofun, inv.pass⟩
  have keys : (s.db.updateStatus id status).Keys := Db.keys_update inv.side.keys fun _ => ⟨rfl, rfl⟩
  have good := inv_commit settled
    (side_commit inv.side keys follows (only_ne (by decide))) follows free
    (fun g giving => ⟨(inv.giving g giving).place, (inv.giving g giving).found,
      follows.holds (only_ne (by decide)) (inv.giving g giving).ready⟩) nofun
  refine ⟨good, follows, fun p q before after => ?_⟩
  obtain rfl := Option.some.inj (before.symm.trans after)
  have edges : Follows (Relation.ReflGen Edge) s.db (s.db.updateStatus id status) :=
    follows.mono fun _ _ => edge_of_change (nofun : Action.report status ≠ .commitPass)
  exact edges.view (fun _ => .refl) (free_pass (s := s) free before)

theorem other_steps {op : Operation} (inv : Inv s) (done : step s (.other op) = some t) :
    Steps s (.other op) t := by
  simp only [step] at done
  split at done
  · next other =>
      obtain ⟨db, performed, committed⟩ := Option.bind_eq_some_iff.mp done
      obtain ⟨free, rfl⟩ := commit_some committed
      have follows := follows_others other performed
      have good := side_commit inv.side (Db.keys_perform inv.side.keys performed) follows
        fun _ same => same.symm
      refine .commit (inv_commit inv good follows free (fun g giving => ?_) fun id taken => ?_)
        nofun follows free
      · have given := inv.giving g giving
        exact ⟨given.place, given.found, follows.holds (fun _ same => same.symm) given.ready⟩
      · exact follows.holds (fun _ same => same.symm) (inv.taken id taken)
  · cases done

theorem inv_pass {q : Option Pass} (inv : Inv s) (unwritten : ∀ p, q = some p → p.jobs = [])
    (opened : ∀ p, q = some p → Open s.db p) : Inv { s with pass := q } := by
  refine ⟨inv.side, inv.giving, fun g _ _ => ?_, inv.taken, opened⟩
  cases q with
  | none => exact (List.not_mem_nil : g.js.jobid ∉ [])
  | some p =>
      change g.js.jobid ∉ p.jobs.map Job.jobid
      rw [unwritten p rfl]
      exact List.not_mem_nil

theorem step_steps (inv : Inv s) (done : step s a = some t) : Steps s a t := by
  cases a with
  | side b => exact side_steps inv done
  | drop => exact drop_steps inv done
  | select choice => exact select_steps inv done
  | mark =>
      obtain ⟨g, giving, marked⟩ := Option.bind_eq_some_iff.mp done
      exact mark_steps inv giving marked
  | commitGiving =>
      obtain ⟨g, giving, committed⟩ := Option.bind_eq_some_iff.mp done
      exact commitGiving_steps inv giving committed
  | rollbackGiving =>
      obtain ⟨g, -, rfl⟩ := Option.map_eq_some_iff.mp done
      exact .still (inv_rest inv) rfl rfl fun _ => rfl
  | beginPass env =>
      simp only [step] at done
      split at done
      · next none =>
          obtain rfl := Option.some.inj done
          refine ⟨inv_pass inv (fun p same => ?_) fun p same => ?_, .refl (fun _ => rfl) s.db,
            fun p q before _ => nomatch (Option.isNone_iff_eq_none.mp none).symm.trans before⟩
          · exact Option.some.inj same ▸ rfl
          · exact Option.some.inj same ▸ open_start env s.db
      · cases done
  | statement =>
      obtain ⟨p, opened, executed⟩ := Option.bind_eq_some_iff.mp done
      exact statement_steps inv opened executed
  | commitPass =>
      obtain ⟨p, opened, committed⟩ := Option.bind_eq_some_iff.mp done
      exact commitPass_steps inv opened committed
  | rollbackPass =>
      obtain ⟨p, -, rfl⟩ := Option.map_eq_some_iff.mp done
      exact ⟨inv_pass inv nofun nofun, .refl (fun _ => rfl) s.db, fun p q _ after => nomatch after⟩
  | take si js =>
      simp only [step] at done
      split at done
      · next allowed =>
          have listed := allowed.2
          obtain rfl := Option.some.inj done
          refine .still ⟨inv.side, inv.giving, inv.marked, fun id same => ?_, inv.pass⟩ rfl rfl
            fun _ => rfl
          obtain rfl := Option.some.inj same
          simp only [Db.isGetInfo, List.mem_flatMap, List.mem_map, List.mem_filter,
            Bool.and_eq_true, decide_eq_true_eq, Prod.mk.injEq] at listed
          obtain ⟨si', -, row, ⟨member, state, -⟩, -, rfl⟩ := listed
          exact ⟨row, member, rfl, state⟩
      · cases done
  | report status =>
      obtain ⟨id, taken, committed⟩ := Option.bind_eq_some_iff.mp done
      exact report_steps inv taken committed
  | giveUp =>
      obtain ⟨id, -, rfl⟩ := Option.map_eq_some_iff.mp done
      exact .still ⟨inv.side, inv.giving, inv.marked, nofun, inv.pass⟩ rfl rfl fun _ => rfl
  | other op => exact other_steps inv done

end Step

def Ended (s : JState) : Prop := s = .C ∨ s = .D ∨ s = .N0

theorem Ended.stays {s t : JState} (ended : Ended s) (path : Path s t) : t = s := by
  rcases Relation.ReflTransGen.cases_head path with same | ⟨u, first, -⟩
  · exact same.symm
  · rcases ended with rfl | rfl | rfl
    · cases first
    · cases first
    · cases first

def Past (s : JState) : Prop := s = .S4W ∨ s = .C ∨ s = .D

theorem Past.path {s t : JState} (past : Past s) (path : Path s t) : Past t := by
  induction path with
  | refl => exact past
  | tail _ last ih =>
      rcases ih with rfl | rfl | rfl
      · cases last with
        | sent => exact .inr (.inl rfl)
        | unsent => exact .inr (.inr rfl)
      · cases last
      · cases last

def HandedOver (db : Db) (id : Uuid) : Prop := ∃ s, Past s ∧ Holds db id s

section Run

variable {s t u : State} {a : Action}

theorem Steps.path (steps : Steps s a t) : Follows Path s.db t.db :=
  steps.follows.mono fun _ _ => path_of_change

theorem HandedOver.follows {db db' : Db} {id : Uuid} (past : HandedOver db id)
    (follows : Follows Path db db') : HandedOver db' id := by
  obtain ⟨s, known, job, member, same, rfl⟩ := past
  obtain ⟨row, present, equal, path⟩ := follows job member
  exact ⟨row.jstate, known.path path, row, present, equal.trans same, rfl⟩

theorem handed_ready (inv : Inv s) {id : Uuid} (member : id ∈ handed s a) : Holds s.db id .S4 := by
  cases a with
  | commitGiving =>
      simp only [handed] at member
      split at member
      · next g giving =>
          split at member
          · rw [List.mem_singleton.mp member]
            exact (inv.giving g giving).ready
          · cases member
      · cases member
  | _ => cases member

theorem ready_not_past (inv : Inv s) {id : Uuid} (ready : Holds s.db id .S4) :
    ¬ HandedOver s.db id := by
  rintro ⟨state, past, job, member, same, waits⟩
  obtain ⟨row, present, equal, start⟩ := ready
  obtain rfl := List.inj_on_of_nodup_map inv.side.keys.jobids present member (equal.trans same.symm)
  obtain rfl := start.symm.trans waits
  rcases past with h | h | h <;> cases h

theorem handed_over (inv : Inv s) (done : step s a = some t) {id : Uuid}
    (member : id ∈ handed s a) : HandedOver t.db id := by
  obtain ⟨job, inside, same, state⟩ := handed_ready inv member
  cases a with
  | commitGiving =>
      obtain ⟨g, giving, committed⟩ := Option.bind_eq_some_iff.mp done
      unfold commitGiving at committed
      split at committed
      · next marked =>
          obtain rfl := Option.some.inj committed
          simp only [handed, giving, marked, if_true, List.mem_singleton] at member
          subst member
          refine ⟨.S4W, .inl rfl, { job with jstate := .S4W }, ?_, same, rfl⟩
          refine List.mem_map.mpr ⟨job, inside, ?_⟩
          simp [same, state]
      · cases committed
  | _ => cases member

theorem handed_nodup (s : State) (a : Action) : (handed s a).Nodup := by
  unfold handed
  split
  · split
    · split
      · exact List.nodup_singleton _
      · exact List.nodup_nil
    · exact List.nodup_nil
  · exact List.nodup_nil

/-- A run hands no job over that was handed over before, or earlier in the run. -/
theorem run_hands_once {actions : List Action} (inv : Inv s) (done : run step s actions = some u) :
    (outputs step handed s actions).Nodup ∧
      ∀ id ∈ outputs step handed s actions, ¬ HandedOver s.db id := by
  induction actions generalizing s with
  | nil => exact ⟨List.nodup_nil, nofun⟩
  | cons a rest ih =>
      obtain ⟨v, head, tail⟩ := run_cons.mp done
      have steps := step_steps inv head
      obtain ⟨nodup, fresh⟩ := ih steps.inv tail
      rw [outputs_cons head]
      constructor
      · refine List.nodup_append.mpr ⟨handed_nodup s a, nodup, ?_⟩
        rintro id now other later rfl
        exact fresh id later (handed_over inv head now)
      · intro id member past
        rcases List.mem_append.mp member with now | later
        · exact ready_not_past inv (handed_ready inv now) past
        · exact fresh id later (past.follows steps.path)

theorem run_path {actions : List Action} (inv : Inv s) (done : run step s actions = some u) :
    Inv u ∧ Follows Path s.db u.db := by
  induction actions generalizing s with
  | nil =>
      obtain rfl := Option.some.inj done
      exact ⟨inv, .refl (fun _ => .refl) s.db⟩
  | cons a rest ih =>
      obtain ⟨v, head, tail⟩ := run_cons.mp done
      have steps := step_steps inv head
      obtain ⟨last, path⟩ := ih steps.inv tail
      exact ⟨last, steps.path.trans (fun _ _ _ first second => first.trans second) path⟩

end Run

def start (root : Uuid) (own : SelfInfo) (known : List SysInfo) (sigs : Nat) : State :=
  ⟨SenderSide.initial { Db.installed root own with sysinfo := known } sigs, none, none, none⟩

theorem inv_start (root : Uuid) (own : SelfInfo) (known : List SysInfo) (sigs : Nat) :
    Inv (start root own known sigs) := by
  have keys : ({ Db.installed root own with sysinfo := known } : Db).Keys := by
    constructor
    · exact List.nodup_singleton root
    · intro job member
      rw [List.mem_singleton.mp member]
      exact List.mem_singleton.mpr rfl
  exact ⟨SenderSide.inv_initial keys sigs, nofun, nofun, nofun, nofun⟩

/-- One step moves the states of the committed rows, and of the rows as the transaction of
`run_jobs` sees them, along the edges; only its commit moves a row along several. -/
structure Lawful (s : State) (a : Action) (t : State) : Prop where
  committed : Follows Path s.db t.db
  single : a ≠ .commitPass → Follows (Relation.ReflGen Edge) s.db t.db
  seen : ∀ p q, s.pass = some p → t.pass = some q →
    Follows (Relation.ReflGen Edge) (p.view s.db) (q.view t.db)

theorem jobs_follow_edges {root : Uuid} {own : SelfInfo} {known : List SysInfo} {sigs : Nat}
    {before after : List Action} {a : Action} {s t u : State}
    (reached : run step (start root own known sigs) before = some s)
    (moved : step s a = some t) (later : run step t after = some u) :
    Lawful s a t ∧
      (∀ job ∈ s.db.jobScheduler, Ended job.jstate → Holds u.db job.jobid job.jstate) ∧
      (outputs step handed (start root own known sigs) (before ++ a :: after)).Nodup := by
  have inv := (run_path (inv_start root own known sigs) reached).1
  have steps := step_steps inv moved
  have rest : run step s (a :: after) = some u := run_cons.mpr ⟨t, moved, later⟩
  refine ⟨⟨steps.path, fun other => ?_, steps.seen⟩, fun job member ended => ?_, ?_⟩
  · exact steps.follows.mono fun _ _ => edge_of_change other
  · obtain ⟨row, present, same, path⟩ := (run_path inv rest).2 job member
    exact ⟨row, present, same, ended.stays path⟩
  · have whole := run_append.mpr ⟨s, reached, rest⟩
    exact (run_hands_once (inv_start root own known sigs) whole).1

def arriving : List Action :=
  [.other (.storeData (Uuid.ofNat 1) 5 (ascii "first")), .beginPass sampleEnv, .statement,
    .other (.storeData (Uuid.ofNat 2) 6 (ascii "second"))]

/-- The statement that rejects them, and the rest of the pass. -/
theorem rejected_messages_follow_edges :
    ∃ s t u, run step (start (Uuid.ofNat 0) Db.sampleDb.selfinfo [] 0) arriving = some s ∧
      step s .statement = some t ∧
      run step t (List.replicate 22 .statement ++ [.commitPass]) = some u ∧
      Lawful s .statement t ∧
      (∀ job ∈ s.db.jobScheduler, Ended job.jstate → Holds u.db job.jobid job.jstate) ∧
      (outputs step handed (start (Uuid.ofNat 0) Db.sampleDb.selfinfo [] 0)
        (arriving ++ .statement :: (List.replicate 22 .statement ++ [.commitPass]))).Nodup := by
  have runs : (run step (start (Uuid.ofNat 0) Db.sampleDb.selfinfo [] 0)
      (arriving ++ .statement :: (List.replicate 22 .statement ++ [.commitPass]))).isSome = true := by
    decide +kernel
  obtain ⟨u, done⟩ := Option.isSome_iff_exists.mp runs
  obtain ⟨s, reached, rest⟩ := run_append.mp done
  obtain ⟨t, moved, later⟩ := run_cons.mp rest
  exact ⟨s, t, u, reached, moved, later, jobs_follow_edges reached moved later⟩

end Transactions

end FileSharing
