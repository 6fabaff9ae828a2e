import FileSharing.Database.Operations
import FileSharing.Network.Agreement
import FileSharing.Network.Peers

/-! Two systems with all that their programs do to the databases, and the consensus messages
between them: no job waits for a capacity that nothing will bring. -/

namespace FileSharing

open Library RunJobs

namespace Awaiting

open Agreement (Side ismessageSize)

structure State where
  db : Side → Db
  sent : Side → List Bytea

inductive Action where
  | perform (side : Side) (op : Operation)
  | initialSender (side : Side) (si : SysInfo) (job : Job) (whole : Bool) (status : Int)
  | initialReceiver (side : Side) (id : Uuid) (fd : Int) (data : Bytea)

/-- `processor_r` stores the data messages of the peer, and a status that the sender reports is
about a job that it was given. -/
def Works (db : Db) : Operation → Prop
  | .storeData _ _ data => DataFor db.selfinfo data
  | .updateStatus id _ => ∀ job ∈ db.jobScheduler, job.jobid = id → job.jstate = .S4W
  | _ => True

instance (db : Db) (op : Operation) : Decidable (Works db op) := by
  unfold Works
  split
  · exact inferInstance
  · exact inferInstance
  · exact .isTrue trivial

/-- `initial_sender` takes a row of `get_info`; its calls of `connect` and `send` get the whole
message through or not. -/
def step (s : State) : Action → Option State
  | .perform side op =>
      if Works (s.db side) op then
        ((s.db side).perform op).map fun db => { s with db := Function.update s.db side db }
      else none
  | .initialSender side si job whole status =>
      if (si, job) ∈ (s.db side).isGetInfo then
        let message := job.jobdata.take ismessageSize
        some {
          db := Function.update s.db side ((s.db side).updateStatus job.jobid status)
          sent := if whole then
              Function.update s.sent side.other (message :: s.sent side.other)
            else s.sent }
      else none
  | .initialReceiver side id fd data =>
      if data ∈ s.sent side ∧ data.length = ismessageSize then
        match (s.db side).storeData id fd (data.takeWhile (· ≠ 0)) with
        | .ok db => some {
            db := Function.update s.db side db
            sent := Function.update s.sent side ((s.sent side).erase data) }
        | .error _ => none
      else none

structure Start (own : Side → SelfInfo) (s : State) : Prop where
  jobs : ∀ side, ∃ root,
    (s.db side).jobScheduler = (Db.installed root (own side)).jobScheduler
  selfinfo : ∀ side, (s.db side).selfinfo = own side
  addresses : ∀ side, ((s.db side).sysinfo.map SysInfo.ipaddress).Nodup
  entries : ∀ side, ∀ si ∈ (s.db side).sysinfo, Entry (own side.other) si
  sent : ∀ side, s.sent side = []

/-- Where a message that `side` makes can be before its receiver has taken it. -/
inductive Underway (s : State) (kind : Kind) (side : Side) : Prop
  | queued (queued : Queued kind (s.db side))
  | sent (sent : ∃ data ∈ s.sent side.other, messageType data = typeField kind.digit)
  | stored (stored : Stored kind (s.db side.other))

/-- The exchange that `side` asked for can still complete. -/
def Pending (s : State) (side : Side) : Prop :=
  Underway s .request side ∨ Underway s .reply side.other

instance (s : State) (kind : Kind) (side : Side) : Decidable (Underway s kind side) :=
  decidable_of_iff (Queued kind (s.db side) ∨
      (∃ data ∈ s.sent side.other, messageType data = typeField kind.digit) ∨
      Stored kind (s.db side.other)) <| by
    constructor
    · rintro (queued | sent | stored)
      · exact .queued queued
      · exact .sent sent
      · exact .stored stored
    · intro underway
      cases underway with
      | queued queued => exact .inl queued
      | sent sent => exact .inr (.inl sent)
      | stored stored => exact .inr (.inr stored)

instance (s : State) (side : Side) : Decidable (Pending s side) :=
  inferInstanceAs (Decidable (_ ∨ _))

/-- The side that waits for what follows from a consensus message. -/
def asker (side : Side) (job : Job) : Side :=
  if job.jtype = Kind.request.type then side else side.other

/-- A message that a job waits for gets through. -/
def Delivers (s : State) : Action → Prop
  | .initialSender side _ job whole _ => whole = true ∨ ¬ Waits (s.db (asker side job))
  | _ => True

instance (s : State) (a : Action) : Decidable (Delivers s a) := by
  unfold Delivers
  split
  · exact inferInstance
  · exact .isTrue trivial

section Rows

variable {me peer : SelfInfo} {db db' : Db} {touched : Job → Prop} {fresh : Bytea → Prop}
  {kind : Kind}

structure SameRow (job job' : Job) : Prop where
  jobid : job'.jobid = job.jobid
  jparentJobid : job'.jparentJobid = job.jparentJobid
  jobdata : job'.jobdata = job.jobdata
  jstate : job'.jstate = job.jstate
  jtype : job'.jtype = job.jtype
  jdestination : job'.jdestination = job.jdestination

theorem SameRow.refl (job : Job) : SameRow job job := ⟨rfl, rfl, rfl, rfl, rfl, rfl⟩

def Aside (s : JState) : Prop := s = .S ∨ s = .S4W ∨ s = .C ∨ s = .D

instance (s : JState) : Decidable (Aside s) := inferInstanceAs (Decidable (_ ∨ _ ∨ _ ∨ _))

structure Calm (touched : Job → Prop) (fresh : Bytea → Prop) (db db' : Db) : Prop where
  sysinfo : db'.sysinfo = db.sysinfo
  selfinfo : db'.selfinfo = db.selfinfo
  forth : ∀ job ∈ db.jobScheduler, ¬ touched job → ∃ job' ∈ db'.jobScheduler, SameRow job job'
  back : ∀ job' ∈ db'.jobScheduler, (∃ job ∈ db.jobScheduler, SameRow job job') ∨
    Aside job'.jstate ∨ job'.jstate = .N1 ∧ fresh job'.jobdata

theorem Calm.of_eq (jobs : db'.jobScheduler = db.jobScheduler) (sysinfo : db'.sysinfo = db.sysinfo)
    (selfinfo : db'.selfinfo = db.selfinfo) : Calm touched fresh db db' := by
  refine ⟨sysinfo, selfinfo, fun job member _ => ⟨job, jobs ▸ member, .refl job⟩, ?_⟩
  exact fun job member => .inl ⟨job, jobs ▸ member, .refl job⟩

theorem Calm.append {job : Job} (only : OnlyJobs db db')
    (jobs : db'.jobScheduler = db.jobScheduler ++ [job])
    (new : Aside job.jstate ∨ job.jstate = .N1 ∧ fresh job.jobdata) : Calm touched fresh db db' := by
  refine ⟨only.sysinfo, only.selfinfo, fun old member _ => ⟨old, ?_, .refl old⟩, ?_⟩
  · rw [jobs]
    exact List.mem_append_left _ member
  · intro job' member
    rw [jobs] at member
    cases List.mem_append.mp member with
    | inl old => exact .inl ⟨job', old, .refl job'⟩
    | inr last =>
        rw [List.mem_singleton.mp last]
        exact .inr new

theorem Calm.update {condition : Job → Bool} {change : Job → Job}
    (each : ∀ job ∈ db.jobScheduler, condition job = true →
      SameRow job (change job) ∨ touched job ∧ Aside (change job).jstate) :
    Calm touched fresh db (db.updateJobs condition change) := by
  refine ⟨rfl, rfl, fun job member free => ⟨_, List.mem_map_of_mem member, ?_⟩, ?_⟩
  · split
    · next holds => exact (each job member holds).resolve_right fun h => free h.1
    · exact .refl job
  · intro job' member
    obtain ⟨job, inside, rfl⟩ := List.mem_map.mp member
    split
    · next holds =>
        cases each job inside holds with
        | inl same => exact .inl ⟨job, inside, same⟩
        | inr moved => exact .inr (.inl moved.2)
    · exact .inl ⟨job, inside, .refl job⟩

theorem Calm.waits (calm : Calm touched fresh db db') (waits : Waits db') : Waits db := by
  obtain ⟨job', member, state, si, row, name, zero⟩ := waits
  rcases calm.back job' member with ⟨job, inside, same⟩ | aside | ⟨arrived, -⟩
  · refine ⟨job, inside, same.jstate.symm.trans state, si, calm.sysinfo ▸ row, ?_, zero⟩
    rw [name, same.jdestination]
  · rw [state] at aside
    exact absurd aside (by decide)
  · cases arrived.symm.trans state

theorem Calm.queued (calm : Calm touched fresh db db') (queued : Queued kind db)
    (free : ∀ job ∈ db.jobScheduler, job.jstate = .S5 → job.jtype = kind.type → ¬ touched job) :
    Queued kind db' := by
  obtain ⟨job, member, state, type⟩ := queued
  obtain ⟨job', inside, same⟩ := calm.forth job member (free job member state type)
  exact ⟨job', inside, same.jstate.trans state, same.jtype.trans type⟩

theorem Calm.stored (calm : Calm touched fresh db db') (stored : Stored kind db)
    (free : ∀ job ∈ db.jobScheduler, Incoming job.jstate → ¬ touched job) : Stored kind db' := by
  obtain ⟨job, member, incoming, type⟩ := stored
  obtain ⟨job', inside, same⟩ := calm.forth job member (free job member incoming)
  exact ⟨job', inside, same.jstate ▸ incoming, by rw [same.jobdata, type]⟩

theorem Calm.sideInv (calm : Calm touched fresh db db') (inv : SideInv me peer db) (keys : db'.Keys)
    (arrived : ∀ data, fresh data → Arrived me peer data)
    (free : ∀ job ∈ db.jobScheduler, job.jstate = .N0 → ¬ touched job) : SideInv me peer db' := by
  constructor
  · exact keys
  · exact calm.selfinfo.trans inv.selfinfo
  · exact calm.sysinfo ▸ inv.addresses
  · exact calm.sysinfo ▸ inv.entries
  · obtain ⟨top, member, state, self, name⟩ := inv.root
    obtain ⟨top', inside, same⟩ := calm.forth top member (free top member state)
    refine ⟨top', inside, same.jstate.trans state, ?_, same.jdestination.trans name⟩
    rw [same.jobid, same.jparentJobid, self]
  · intro job' member state
    rcases calm.back job' member with ⟨job, inside, same⟩ | aside | ⟨arrived, -⟩
    · rw [same.jtype, same.jobdata]
      exact inv.outgoing job inside (same.jstate.symm.trans state)
    · rw [state] at aside
      exact absurd aside (by decide)
    · cases arrived.symm.trans state
  · intro job' member incoming
    rcases calm.back job' member with ⟨job, inside, same⟩ | aside | ⟨state, new⟩
    · rw [same.jstate, same.jobdata]
      exact inv.stored job inside (same.jstate ▸ incoming)
    · rcases aside with state | state | state | state <;> exact absurd incoming (by rw [state]; decide)
    · exact ⟨state, arrived _ new⟩
  · intro job' member state
    rcases calm.back job' member with ⟨job, inside, same⟩ | aside | ⟨arrived, -⟩
    · rw [same.jtype]
      exact inv.identified job inside (same.jstate.symm.trans state)
    · rw [state] at aside
      exact absurd aside (by decide)
    · cases arrived.symm.trans state

def Sending (job : Job) : Prop := job.jstate = .S4 ∨ job.jstate = .S4W

theorem calm_attempt {done : Sql Db} (each : ∀ u, done = .ok u → Calm touched fresh db u) :
    Calm touched fresh db (db.attempt done) := by
  rcases Db.attempt_cases db done with same | ⟨u, ok, same⟩
  · rw [same]
    exact .of_eq rfl rfl rfl
  · rw [same]
    exact each u ok

theorem aside_status (job : Job) (status : Int) :
    Aside ({ job with jstate := if status > 0 then .C else .D } : Job).jstate := by
  by_cases positive : status > 0
  · exact .inr (.inr (.inl (if_pos positive)))
  · exact .inr (.inr (.inr (if_neg positive)))

theorem calm_perform {op : Operation} (works : Works db op) (keys : db.Keys)
    (other : ∀ env, op ≠ .runJobs env) (done : db.perform op = some db') :
    Calm Sending (DataFor db.selfinfo) db db' := by
  cases op with
  | runJobs env => exact absurd rfl (other env)
  | importFile file =>
      obtain rfl := Option.some.inj done
      apply calm_attempt
      intro u ok
      rw [importFile_ok ok]
      exact .of_eq rfl rfl rfl
  | sendFile id fileName destination =>
      obtain rfl := Option.some.inj done
      apply calm_attempt
      intro u ok
      obtain ⟨only, same | ⟨job, appended, -, -, state, -⟩⟩ := sendFile_ok ok
      · exact .of_eq same only.sysinfo only.selfinfo
      · exact .append only appended (.inl (.inl state))
  | updateJobPriority id priority =>
      obtain rfl := Option.some.inj done
      exact .update fun job _ _ => .inl ⟨rfl, rfl, rfl, rfl, rfl, rfl⟩
  | storeData id fd data =>
      obtain rfl := Option.some.inj done
      apply calm_attempt
      intro u ok
      obtain ⟨only, job, appended, -, same, -, state⟩ := storeData_ok ok
      exact .append only appended (.inr ⟨state, same ▸ works⟩)
  | retrieve sc js =>
      simp only [Db.perform] at done
      split at done
      · next listed =>
          obtain rfl := Option.some.inj done
          obtain ⟨-, member, state, -⟩ := Db.mem_sGetInfo.mp listed
          apply Calm.update
          intro job inside chosen
          obtain rfl : job = js :=
            List.inj_on_of_nodup_map keys.jobids inside member (of_decide_eq_true chosen)
          refine .inr ⟨.inl state, .inr (.inl ?_)⟩
          rw [state]
      · cases done
  | updateStatus id status =>
      obtain rfl := Option.some.inj done
      apply Calm.update
      intro job inside chosen
      exact .inr ⟨.inr (works job inside (of_decide_eq_true chosen)), aside_status job status⟩
  | updateConns ipaddress fd status =>
      obtain rfl := Option.some.inj done
      exact .of_eq rfl rfl rfl
  | updateComms scommid =>
      obtain rfl := Option.some.inj done
      exact .of_eq rfl rfl rfl
  | deleteComms scommid =>
      obtain rfl := Option.some.inj done
      exact .of_eq rfl rfl rfl
  | getcomms rcomid =>
      obtain ⟨row, -, -, rfl⟩ := Db.perform_getcomms done
      exact .of_eq rfl rfl rfl
  | insertConns fd ipaddr status =>
      obtain rfl := Option.some.inj done
      obtain ⟨rows, same⟩ := Db.rInsertConns_frame db fd ipaddr status
      rw [same]
      exact .of_eq rfl rfl rfl

theorem calm_updateStatus (id : Uuid) (status : Int) :
    Calm (fun job => job.jobid = id) fresh db (db.updateStatus id status) := by
  apply Calm.update
  intro job _ chosen
  exact .inr ⟨of_decide_eq_true chosen, aside_status job status⟩

theorem calm_storeData {id : Uuid} {fd : Int} {data : Bytea}
    (done : db.storeData id fd data = .ok db') :
    Calm (fun _ => False) (fun stored => stored = data) db db' := by
  obtain ⟨only, job, appended, -, same, -, state⟩ := storeData_ok done
  exact .append only appended (.inr ⟨state, same⟩)

end Rows

section Steps

variable {own : Side → SelfInfo} {s t : State}

structure Inv (own : Side → SelfInfo) (s : State) : Prop where
  sides : ∀ side, SideInv (own side) (own side.other) (s.db side)
  sent : ∀ side, ∀ data ∈ s.sent side, ∃ kind, MadeBy kind (own side.other) (own side) data
  awaited : ∀ side, Waits (s.db side) → Pending s side

theorem other_ne (side : Side) : side.other ≠ side := by
  cases side with
  | a => decide
  | b => decide

theorem sides_update (inv : Inv own s) {side : Side} {db : Db}
    (kept : SideInv (own side) (own side.other) db) :
    ∀ w, SideInv (own w) (own w.other) (Function.update s.db side db w) := by
  intro w
  by_cases same : w = side
  · subst same
    rwa [Function.update_self]
  · rw [Function.update_of_ne same]
    exact inv.sides w

theorem Underway.move {side w : Side} {kind : Kind} {P : Prop} (underway : Underway s kind w)
    (same : ∀ v, v ≠ side → t.db v = s.db v) (there : Underway t kind w → P)
    (queue : w = side → Queued kind (s.db side) → P)
    (wire : ∀ data ∈ s.sent w.other, messageType data = typeField kind.digit → P)
    (store : w.other = side → Stored kind (s.db side) → P) : P := by
  cases underway with
  | queued queued =>
      by_cases here : w = side
      · exact queue here (here ▸ queued)
      · exact there (.queued (by rwa [same w here]))
  | sent sent =>
      obtain ⟨data, member, type⟩ := sent
      exact wire data member type
  | stored stored =>
      by_cases here : w.other = side
      · exact store here (here ▸ stored)
      · exact there (.stored (by rwa [same w.other here]))

theorem queued_update {side w : Side} {kind : Kind} {db : Db} {sent : Side → List Bytea}
    (here : w = side) (queued : Queued kind db) :
    Underway ⟨Function.update s.db side db, sent⟩ kind w := by
  subst here
  exact .queued (by simpa using queued)

theorem stored_update {side w : Side} {kind : Kind} {db : Db} {sent : Side → List Bytea}
    (here : w.other = side) (stored : Stored kind db) :
    Underway ⟨Function.update s.db side db, sent⟩ kind w := by
  subst here
  exact .stored (by simpa using stored)

theorem waits_update {side v : Side} {db : Db} {sent : Side → List Bytea}
    (before : Waits db → Waits (s.db side))
    (waits : Waits ((⟨Function.update s.db side db, sent⟩ : State).db v)) : Waits (s.db v) := by
  by_cases same : v = side
  · subst same
    simp only [Function.update_self] at waits
    exact before waits
  · simpa only [Function.update_of_ne same] using waits

theorem inv_calm (inv : Inv own s) {side : Side} {db : Db} (keys : db.Keys)
    (calm : Calm Sending (DataFor (own side)) (s.db side) db) :
    Inv own { s with db := Function.update s.db side db } := by
  have root (job : Job) (state : job.jstate = .N0) : ¬ Sending job := by
    rw [Sending, state]
    decide
  have queue (job : Job) (state : job.jstate = .S5) : ¬ Sending job := by
    rw [Sending, state]
    decide
  have store (job : Job) (incoming : Incoming job.jstate) : ¬ Sending job := by
    rintro (state | state)
    · rw [state] at incoming
      exact absurd incoming (by decide)
    · rw [state] at incoming
      exact absurd incoming (by decide)
  refine ⟨sides_update inv ?_, inv.sent, fun v waits => ?_⟩
  · exact calm.sideInv (inv.sides side) keys (fun _ data => .inr data) fun job _ => root job
  · have kept (kind : Kind) (w : Side) (underway : Underway s kind w) :
        Underway { s with db := Function.update s.db side db } kind w := by
      apply underway.move (fun v other => Function.update_of_ne other _ _) id
      · intro here queued
        exact queued_update here (calm.queued queued fun job _ state _ => queue job state)
      · exact fun data member type => .sent ⟨data, member, type⟩
      · intro here stored
        exact stored_update here (calm.stored stored fun job _ => store job)
    exact (inv.awaited v (waits_update calm.waits waits)).imp (kept _ _) (kept _ _)

theorem inv_runJobs (config : ∀ side, Config (own side))
    (some : ∀ side, (own side).systemCapacity ≠ 0) (inv : Inv own s) {side : Side} {env : Env}
    {db : Db} (done : runJobs env (s.db side) = .ok db) :
    Inv own { s with db := Function.update s.db side db } := by
  have mine := inv.sides side
  have kept := sideInv_runJobs (config side) (config side.other) (some side) (some side.other) mine done
  have queue {kind : Kind} {w : Side} (here : w = side) (queued : Queued kind (s.db side)) :
      Underway { s with db := Function.update s.db side db } kind w :=
    queued_update here (queued.evolves (runJobs_ok done))
  refine ⟨sides_update inv kept, inv.sent, fun v waits => ?_⟩
  have same (w : Side) (other : w ≠ side) : Function.update s.db side db w = s.db w :=
    Function.update_of_ne other _ _
  by_cases here : v = side
  · subst here
    simp only [Function.update_self] at waits
    cases asks (config v) (config v.other) (some v) (some v.other) mine done waits with
    | inl queued => exact .inl (queued_update rfl queued)
    | inr before =>
        apply (inv.awaited v before).imp
        · intro request
          apply request.move same id queue (fun data member type => .sent ⟨data, member, type⟩)
          exact fun back => absurd back (other_ne v)
        · intro reply
          apply reply.move same id queue (fun data member type => .sent ⟨data, member, type⟩)
          intro _ stored
          exact absurd waits
            (takes (config v) (config v.other) (some v) (some v.other) mine stored done)
  · have before : Waits (s.db v) := by
      simpa only [same v here] using waits
    rcases inv.awaited v before with request | reply
    · apply request.move same Or.inl (fun here queued => .inl (queue here queued))
        (fun data member type => .inl (.sent ⟨data, member, type⟩))
      exact fun back stored => .inr (queued_update back (answers (config side) mine stored done))
    · refine .inr (reply.move same id queue (fun data member type => .sent ⟨data, member, type⟩) ?_)
      intro back
      rw [Agreement.other_other] at back
      exact absurd back here

theorem of_isGetInfo {db : Db} {si : SysInfo} {job : Job} (ready : (si, job) ∈ db.isGetInfo) :
    job ∈ db.jobScheduler ∧ job.jstate = .S5 := by
  simp only [Db.isGetInfo, List.mem_flatMap, List.mem_map, List.mem_filter] at ready
  obtain ⟨found, -, job', ⟨inside, test⟩, same⟩ := ready
  obtain ⟨rfl, rfl⟩ := Prod.mk.inj same
  simp only [Bool.and_eq_true, decide_eq_true_eq] at test
  exact ⟨inside, test.1⟩

theorem inv_initialSender (inv : Inv own s) {side : Side} {job : Job} {whole : Bool} {status : Int}
    (member : job ∈ (s.db side).jobScheduler) (state : job.jstate = .S5)
    (delivers : whole = true ∨ ¬ Waits (s.db (asker side job))) :
    Inv own {
      db := Function.update s.db side ((s.db side).updateStatus job.jobid status)
      sent := if whole then
          Function.update s.sent side.other
            (job.jobdata.take ismessageSize :: s.sent side.other)
        else s.sent } := by
  have mine := inv.sides side
  obtain ⟨sort, type, made⟩ := mine.outgoing job member state
  have message : job.jobdata.take ismessageSize = job.jobdata :=
    List.take_of_length_le (le_of_eq made.length)
  rw [message]
  have only {other : Job} (inside : other ∈ (s.db side).jobScheduler)
      (same : other.jobid = job.jobid) : other = job :=
    List.inj_on_of_nodup_map mine.keys.jobids inside member same
  have calm : Calm (fun other => other.jobid = job.jobid) (fun _ => False) (s.db side)
      ((s.db side).updateStatus job.jobid status) := calm_updateStatus job.jobid status
  have keys : ((s.db side).updateStatus job.jobid status).Keys :=
    Db.keys_update mine.keys fun _ => ⟨rfl, rfl⟩
  refine ⟨sides_update inv ?_, fun w data inside => ?_, fun v waits => ?_⟩
  · refine calm.sideInv mine keys (fun _ none => none.elim) fun other inside root same => ?_
    rw [only inside same, state] at root
    cases root
  · cases whole with
    | false => exact inv.sent w data inside
    | true =>
        by_cases here : w = side.other
        · subst here
          simp only [if_true, Function.update_self] at inside
          rcases List.mem_cons.mp inside with rfl | old
          · rw [Agreement.other_other]
            exact ⟨sort, made⟩
          · exact inv.sent side.other data old
        · simp only [if_true, Function.update_of_ne here] at inside
          exact inv.sent w data inside
  · have before := waits_update calm.waits waits
    have wire {w : Side} {kind : Kind} {data : Bytea} (inside : data ∈ s.sent w.other)
        (type : messageType data = typeField kind.digit) : Underway {
          db := Function.update s.db side ((s.db side).updateStatus job.jobid status)
          sent := if whole then Function.update s.sent side.other (job.jobdata :: s.sent side.other)
            else s.sent } kind w := by
      refine .sent ⟨data, ?_, type⟩
      cases whole with
      | false => exact inside
      | true =>
          by_cases here : w.other = side.other
          · simp only [if_true, here, Function.update_self]
            exact List.mem_cons_of_mem _ (here ▸ inside)
          · simpa only [if_true, Function.update_of_ne here] using inside
    have store {w : Side} {kind : Kind} (here : w.other = side) (stored : Stored kind (s.db side)) :
        Stored kind ((s.db side).updateStatus job.jobid status) := by
      refine calm.stored stored fun other inside incoming same => ?_
      rw [only inside same, state] at incoming
      exact absurd incoming (by decide)
    have queue {kind : Kind} (other : kind ≠ sort) (queued : Queued kind (s.db side)) :
        Queued kind ((s.db side).updateStatus job.jobid status) := by
      refine calm.queued queued fun row inside _ same id => other ?_
      rw [only inside id, type] at same
      exact (Kind.type_inj same).symm
    have kept (kind : Kind) (w : Side) (spared : whole = true ∨ w ≠ side ∨ kind ≠ sort)
        (underway : Underway s kind w) : Underway {
          db := Function.update s.db side ((s.db side).updateStatus job.jobid status)
          sent := if whole then Function.update s.sent side.other (job.jobdata :: s.sent side.other)
            else s.sent } kind w := by
      apply underway.move (fun v other => Function.update_of_ne other _ _) id
      · intro here queued
        by_cases other : kind = sort
        · rcases spared with through | elsewhere | different
          · subst here
            refine .sent ⟨job.jobdata, ?_, other ▸ made.type_eq⟩
            simp [through]
          · exact absurd here elsewhere
          · exact absurd other different
        · exact queued_update here (queue other queued)
      · exact fun data => wire
      · exact fun here stored => stored_update here (store here stored)
    cases delivers with
    | inl through =>
        exact (inv.awaited v before).imp (kept _ _ (.inl through)) (kept _ _ (.inl through))
    | inr idle =>
        have apart : v ≠ asker side job := fun same => idle (same ▸ before)
        apply (inv.awaited v before).imp
        · apply kept
          refine .inr (not_and_or.mp ?_)
          rintro ⟨here, same⟩
          exact apart (here.trans (if_pos (same ▸ type)).symm)
        · apply kept
          refine .inr (not_and_or.mp ?_)
          rintro ⟨here, same⟩
          apply apart
          rw [asker, if_neg (by rw [type, ← same]; decide), ← here, Agreement.other_other]

theorem whole_buffer {data : Bytea} (plain : Plain data) : data.takeWhile (· ≠ 0) = data := by
  apply List.takeWhile_eq_self_iff.mpr
  intro c member
  have clean := plain c member
  simp only [ne_eq, decide_not, Bool.not_eq_true', decide_eq_false_iff_not]
  rintro rfl
  exact absurd clean (by decide)

theorem inv_initialReceiver (inv : Inv own s) {side : Side} {uuid : Uuid} {fd : Int}
    {data : Bytea} {db : Db} (member : data ∈ s.sent side)
    (done : (s.db side).storeData uuid fd (data.takeWhile (· ≠ 0)) = .ok db) :
    Inv own ⟨Function.update s.db side db, Function.update s.sent side ((s.sent side).erase data)⟩ := by
  have mine := inv.sides side
  obtain ⟨sort, made⟩ := inv.sent side data member
  rw [whole_buffer made.plain] at done
  have calm := calm_storeData done
  obtain ⟨-, row, appended, -, content, -, state⟩ := storeData_ok done
  have listed : row ∈ db.jobScheduler := by
    rw [appended]
    exact List.mem_append_right _ (List.mem_singleton.mpr rfl)
  have keys : db.Keys := by
    obtain ⟨top, -, -, inserted⟩ := insertUnderRoot_ok done
    exact keys_insertJob inserted mine.keys
  refine ⟨sides_update inv ?_, fun w found inside => ?_, fun v waits => ?_⟩
  · refine calm.sideInv mine keys (fun stored same => ?_) fun _ _ _ => not_false
    exact .inl ⟨sort, same ▸ made⟩
  · by_cases here : w = side
    · subst here
      simp only [Function.update_self] at inside
      exact inv.sent w found (List.mem_of_mem_erase inside)
    · simp only [Function.update_of_ne here] at inside
      exact inv.sent w found inside
  · have kept (kind : Kind) (w : Side) (underway : Underway s kind w) : Underway
        ⟨Function.update s.db side db, Function.update s.sent side ((s.sent side).erase data)⟩
        kind w := by
      apply underway.move (fun v other => Function.update_of_ne other _ _) id
      · exact fun here queued => queued_update here (calm.queued queued fun _ _ _ _ => not_false)
      · intro found inside type
        by_cases here : w.other = side
        · by_cases same : found = data
          · refine stored_update here ⟨row, listed, .inl state, ?_⟩
            rw [content, ← same, type]
          · refine .sent ⟨found, ?_, type⟩
            subst here
            simp only [Function.update_self]
            exact (List.mem_erase_of_ne same).mpr inside
        · refine .sent ⟨found, ?_, type⟩
          simpa only [Function.update_of_ne here] using inside
      · exact fun here stored => stored_update here (calm.stored stored fun _ _ _ => not_false)
    exact (inv.awaited v (waits_update calm.waits waits)).imp (kept _ _) (kept _ _)

theorem inv_perform (config : ∀ side, Config (own side))
    (some : ∀ side, (own side).systemCapacity ≠ 0) (inv : Inv own s) {side : Side} {op : Operation}
    {db : Db} (works : Works (s.db side) op) (done : (s.db side).perform op = .some db) :
    Inv own { s with db := Function.update s.db side db } := by
  have mine := inv.sides side
  have keys := Db.keys_perform mine.keys done
  have calm (other : ∀ env, op ≠ .runJobs env) :
      Inv own { s with db := Function.update s.db side db } :=
    inv_calm inv keys (mine.selfinfo ▸ calm_perform works mine.keys other done)
  cases op with
  | runJobs env =>
      obtain rfl := Option.some.inj done
      rcases Db.attempt_cases (s.db side) (runJobs env (s.db side)) with same | ⟨u, ok, same⟩
      · rw [same, Function.update_eq_self]
        exact inv
      · rw [same]
        exact inv_runJobs config some inv ok
  | _ => exact calm nofun

theorem inv_step (config : ∀ side, Config (own side))
    (some : ∀ side, (own side).systemCapacity ≠ 0) (inv : Inv own s) {a : Action}
    (delivers : Delivers s a) (moved : step s a = .some t) : Inv own t := by
  cases a with
  | perform side op =>
      simp only [step] at moved
      split at moved
      · next works =>
          obtain ⟨db, done, rfl⟩ := Option.map_eq_some_iff.mp moved
          exact inv_perform config some inv works done
      · cases moved
  | initialSender side si job whole status =>
      simp only [step] at moved
      split at moved
      · next ready =>
          obtain rfl := Option.some.inj moved
          obtain ⟨member, state⟩ := of_isGetInfo ready
          exact inv_initialSender inv member state delivers
      · cases moved
  | initialReceiver side id fd data =>
      simp only [step] at moved
      split at moved
      · next arrived =>
          split at moved
          · next db done =>
              obtain rfl := Option.some.inj moved
              exact inv_initialReceiver inv arrived.1 done
          · cases moved
      · cases moved

theorem inv_start (start : Start own s) : Inv own s := by
  have rows {side : Side} {job : Job} (member : job ∈ (s.db side).jobScheduler) :
      job.jstate = .N0 := by
    obtain ⟨root, same⟩ := start.jobs side
    rw [same] at member
    exact List.mem_singleton.mp member ▸ rfl
  refine ⟨fun side => ⟨?_, ?_, ?_, ?_, ?_, ?_, ?_, ?_⟩, fun side data member => ?_,
    fun side waits => ?_⟩
  · obtain ⟨root, same⟩ := start.jobs side
    exact keys_same same ⟨List.nodup_singleton _, by simp [Db.installed, Db.jobids]⟩
  · exact start.selfinfo side
  · exact start.addresses side
  · exact start.entries side
  · obtain ⟨root, same⟩ := start.jobs side
    rw [same]
    exact ⟨_, List.mem_singleton.mpr rfl, rfl, rfl, rfl⟩
  · intro job member state
    cases state.symm.trans (rows member)
  · intro job member incoming
    rw [rows member] at incoming
    exact absurd incoming (by decide)
  · intro job member state
    cases state.symm.trans (rows member)
  · rw [start.sent side] at member
    cases member
  · obtain ⟨job, member, state, -⟩ := waits
    cases state.symm.trans (rows member)

/-- As long as `initial_sender` gets the messages through that a job waits for, every job in S-1
whose destination has the capacity 0 has an exchange that can complete. -/
theorem awaited_of_delivers (config : ∀ side, Config (own side))
    (some : ∀ side, (own side).systemCapacity ≠ 0) (start : Start own s) {actions : List Action}
    (delivers : Guarded step Delivers s actions) (done : run step s actions = .some t)
    (side : Side) : ∀ job ∈ (t.db side).jobScheduler, job.jstate = .S1 →
      ∀ si ∈ (t.db side).sysinfo, si.systemName = job.jdestination →
        si.systemCapacity = .some 0 → Pending t side := by
  intro job member state si row name zero
  have inv := guarded_run_keeps (fun _ _ _ kept allowed moved => inv_step config some kept allowed moved)
    (inv_start start) delivers done
  exact inv.awaited side ⟨job, member, state, si, row, name, zero⟩

end Steps

open Agreement (sampleOwn requestRow replyRow)

def sampleStart : State := ⟨Agreement.sampleStart.db, Agreement.sampleStart.sent⟩

def unknownM1 : SysInfo := ⟨ascii "   M1", 16843009, some 0, 7000, some 0⟩

def replied : List Action :=
  [.perform .a (.sendFile (Uuid.ofNat 1) (ascii "f") (ascii "M1")),
    .perform .a (.runJobs sampleEnv), .initialSender .a unknownM1 requestRow true 147,
    .initialReceiver .b (Uuid.ofNat 2) 5 requestRow.jobdata, .perform .b (.runJobs sampleEnv)]

theorem config_sampleOwn (side : Side) : Config (sampleOwn side) := by
  cases side with
  | a => exact ⟨⟨rfl, by decide, by decide⟩, by decide, by decide, by decide⟩
  | b => exact ⟨⟨rfl, by decide, by decide⟩, by decide, by decide, by decide⟩

theorem start_sampleStart : Start sampleOwn sampleStart := by
  have entry : Entry (sampleOwn .b) unknownM1 := ⟨rfl, rfl, .inl ⟨rfl, rfl⟩⟩
  constructor
  · intro side
    cases side with
    | a => exact ⟨Uuid.ofNat 0, rfl⟩
    | b => exact ⟨Uuid.ofNat 0, rfl⟩
  · intro side
    cases side with
    | a => rfl
    | b => rfl
  · intro side
    cases side with
    | a => decide
    | b => decide
  · intro side si member
    cases side with
    | a => exact List.mem_singleton.mp member ▸ entry
    | b => cases member
  · intro side
    rfl

theorem awaited_replied : ∃ t, run step sampleStart replied = some t ∧ Waits (t.db .a) ∧
    ∀ job ∈ (t.db .a).jobScheduler, job.jstate = .S1 → ∀ si ∈ (t.db .a).sysinfo,
      si.systemName = job.jdestination → si.systemCapacity = some 0 → Pending t .a := by
  have delivers : Guarded step Delivers sampleStart replied := by decide +kernel
  have after : (run step sampleStart replied).map (fun t => decide (Waits (t.db .a))) = some true := by
    decide +kernel
  obtain ⟨t, done, waits⟩ := Option.map_eq_some_iff.mp after
  have some (side : Side) : (sampleOwn side).systemCapacity ≠ 0 := by
    cases side with
    | a => decide
    | b => decide
  exact ⟨t, done, of_decide_eq_true waits,
    awaited_of_delivers config_sampleOwn some start_sampleStart delivers done .a⟩

def refused : List Action :=
  [.perform .a (.sendFile (Uuid.ofNat 1) (ascii "f") (ascii "M1")),
    .perform .a (.runJobs sampleEnv), .initialSender .a unknownM1 requestRow false (-1)]

/-- The file waits in S-1, and nothing is on its way. -/
theorem refused_strands : Start sampleOwn sampleStart ∧ ∃ t, run step sampleStart refused = some t ∧
    (∃ job ∈ (t.db .a).jobScheduler, job.jstate = .S1 ∧ ∃ si ∈ (t.db .a).sysinfo,
      si.systemName = job.jdestination ∧ si.systemCapacity = some 0) ∧ ¬ Pending t .a := by
  have after : (run step sampleStart refused).map (fun t =>
      decide (Waits (t.db .a) ∧ ¬ Pending t .a)) = some true := by decide +kernel
  obtain ⟨t, done, stranded⟩ := Option.map_eq_some_iff.mp after
  exact ⟨start_sampleStart, t, done, of_decide_eq_true stranded⟩

end Awaiting

end FileSharing
