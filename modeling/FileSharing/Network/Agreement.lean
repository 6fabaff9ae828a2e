import FileSharing.Database.Operations
import FileSharing.Database.Requests

/-! Two systems that agree on a capacity: `run_jobs` of both, `initial_sender` and
`initial_receiver` between them. -/

namespace FileSharing

open Library RunJobs

namespace Agreement

inductive Side where
  | a
  | b
  deriving DecidableEq, Repr

def Side.other : Side → Side
  | .a => .b
  | .b => .a

/-- The databases, and the messages that were ever sent to each side: a message may be
delivered later, never, or several times. -/
structure State where
  db : Side → Db
  sent : Side → List Bytea

inductive Action where
  | runJobs (side : Side) (env : Env)
  | importFile (side : Side) (file : File)
  | sendFile (side : Side) (id : Uuid) (fileName destination : Text)
  | initialSender (side : Side) (si : SysInfo) (job : Job) (whole : Bool) (status : Int)
  | initialReceiver (side : Side) (id : Uuid) (fd : Int) (data : Bytea)

def ismessageSize : Nat := 147

def State.setDb (s : State) (side : Side) : Sql Db → State
  | .ok db => { s with db := Function.update s.db side db }
  | .error _ => s

/-- `initial_sender` takes a row of `get_info`, may get the whole message through, and
writes a status. `initial_receiver` stores the string in its buffer once 147 bytes are in. -/
def step (s : State) : Action → Option State
  | .runJobs side env => some (s.setDb side (FileSharing.runJobs env (s.db side)))
  | .importFile side file => some (s.setDb side ((s.db side).importFile file))
  | .sendFile side id fileName destination =>
      some (s.setDb side ((s.db side).sendFile id fileName destination))
  | .initialSender side si job whole status =>
      if (si, job) ∈ (s.db side).isGetInfo then
        let message := job.jobdata.take ismessageSize
        some {
          db := Function.update s.db side ((s.db side).updateStatus job.jobid status)
          sent := if whole then
              Function.update s.sent side.other (message :: s.sent side.other)
            else s.sent }
      else none
  | .initialReceiver side id fd data =>
      if data ∈ s.sent side ∧ data.length = ismessageSize then
        some (s.setDb side ((s.db side).storeData id fd (data.takeWhile (· ≠ 0))))
      else none

structure Config (own : Side → SelfInfo) : Prop where
  name : ∀ side, IsName (own side).systemName
  capacity : ∀ side, IsInt4 (own side).systemCapacity

/-- Nothing was exchanged yet: an entry for the other side has capacity 0 and port 0. -/
structure Start (own : Side → SelfInfo) (s : State) : Prop where
  selfinfo : ∀ side, (s.db side).selfinfo = own side
  jobs : ∀ side, ∀ job ∈ (s.db side).jobScheduler,
    job.jstate ≠ .S5 ∧ ¬ Incoming job.jstate ∧ job.jstate ≠ .N4
  named : ∀ side, ∀ si ∈ (s.db side).sysinfo, Plain si.systemName
  unknown : ∀ side, ∀ si ∈ (s.db side).sysinfo, si.systemName = (own side.other).systemName →
    si.systemCapacity = some 0 ∧ si.dataport = some 0
  sent : ∀ side, s.sent side = []

def MessageOf (me peer : SelfInfo) (data : Bytea) : Prop :=
  Plain data ∧ data.length = ismessageSize ∧ ∃ type destination capacity,
    Carries data type me.systemName destination capacity me.dataport me.ipaddress ∧
    (type = ascii "4" ∧ capacity = me.systemCapacity ∨
      type = ascii "5" ∧ capacity = min me.systemCapacity peer.systemCapacity)

def Entries (me peer : SelfInfo) (rows : List SysInfo) : Prop :=
  ∀ si ∈ rows, Plain si.systemName ∧ (si.systemName = peer.systemName → ∀ capacity,
    si.systemCapacity = some capacity →
    capacity = 0 ∨ capacity = min me.systemCapacity peer.systemCapacity)

structure Jobs (me peer : SelfInfo) (jobs : List Job) : Prop where
  outgoing : ∀ job ∈ jobs, job.jstate = .S5 → MessageOf me peer job.jobdata
  incoming : ∀ job ∈ jobs, Incoming job.jstate → MessageOf peer me job.jobdata
  identified : ∀ job ∈ jobs, job.jstate = .N4 →
    MessageOf peer me job.jobdata ∧ job.jtype = messageType job.jobdata

structure SideInv (me peer : SelfInfo) (db : Db) : Prop where
  selfinfo : db.selfinfo = me
  entries : Entries me peer db.sysinfo
  jobs : Jobs me peer db.jobScheduler

structure Inv (own : Side → SelfInfo) (s : State) : Prop where
  sides : ∀ side, SideInv (own side) (own side.other) (s.db side)
  sent : ∀ side, ∀ data ∈ s.sent side, MessageOf (own side.other) (own side) data

section Steps

variable {me peer : SelfInfo} {env : Env} {db db' : Db}

theorem Jobs.append {jobs fresh : List Job} (old : Jobs me peer jobs) (new : Jobs me peer fresh) :
    Jobs me peer (jobs ++ fresh) := by
  constructor
  · intro job member state
    exact (List.mem_append.mp member).elim (old.outgoing job · state) (new.outgoing job · state)
  · intro job member state
    exact (List.mem_append.mp member).elim (old.incoming job · state) (new.incoming job · state)
  · intro job member state
    exact (List.mem_append.mp member).elim (old.identified job · state) (new.identified job · state)

theorem Jobs.of_other {fresh : List Job} (other : ∀ job ∈ fresh, job.jstate ≠ .S5 ∧
    ¬ Incoming job.jstate ∧ job.jstate ≠ .N4) : Jobs me peer fresh :=
  ⟨fun job member state => absurd state (other job member).1,
    fun job member state => absurd state (other job member).2.1,
    fun job member state => absurd state (other job member).2.2⟩

theorem Jobs.map {w : Scope} {jobs : List Job} {change : Job → Job} (inv : Jobs me peer jobs)
    (kept : ∀ job, JobKept w job (change job)) : Jobs me peer (jobs.map change) := by
  constructor
  · intro job member state
    obtain ⟨old, inside, rfl⟩ := List.mem_map.mp member
    rw [(kept old).jobdata]
    exact inv.outgoing old inside (Promotes.of_s5 (state ▸ (kept old).jstate))
  · intro job member state
    obtain ⟨old, inside, rfl⟩ := List.mem_map.mp member
    rw [(kept old).jobdata]
    exact inv.incoming old inside ((kept old).jstate.incoming state)
  · intro job member state
    obtain ⟨old, inside, rfl⟩ := List.mem_map.mp member
    rw [(kept old).jobdata]
    rcases Promotes.of_n4 (state ▸ (kept old).jstate) with before | before
    · obtain ⟨message, type⟩ := inv.identified old inside before
      have same := (kept old).jtype.resolve_right fun h => h.1.ne_n4 before
      exact ⟨message, same.trans type⟩
    · exact ⟨inv.incoming old inside before, (kept old).identified before state⟩

theorem Jobs.evolves {w : Scope} {made : Job → Prop} (inv : Jobs me peer db.jobScheduler)
    (evolves : Evolves w made db db') (fresh : ∀ job, made job → Jobs me peer [job]) :
    Jobs me peer db'.jobScheduler := by
  obtain ⟨-, change, rows, kept, split, each⟩ := evolves
  rw [split]
  refine (inv.map kept).append ⟨?_, ?_, ?_⟩
  · exact fun job member => (fresh job (each job member)).outgoing job (List.mem_singleton.mpr rfl)
  · exact fun job member => (fresh job (each job member)).incoming job (List.mem_singleton.mpr rfl)
  · exact fun job member => (fresh job (each job member)).identified job (List.mem_singleton.mpr rfl)

theorem jobs_message {job : Job} (row : IsMessageRow job) : Jobs me peer [job] := by
  refine Jobs.of_other fun job' member => ?_
  rw [List.mem_singleton.mp member, row.jstate]
  exact ⟨nofun, (by rintro (h | h | h) <;> cases h), nofun⟩

theorem jobs_consensus {id parent : Uuid} {type destination : Text} {capacity : Int} {job : Job}
    (is : IsConsensus job id type capacity me destination parent)
    (fits : type = ascii "4" ∧ capacity = me.systemCapacity ∨
      type = ascii "5" ∧ capacity = min me.systemCapacity peer.systemCapacity) :
    Jobs me peer [job] := by
  constructor
  · intro job' member _
    rw [List.mem_singleton.mp member]
    exact ⟨is.bytes, is.length, type, destination, capacity, is.carries, fits⟩
  · intro job' member state
    rw [List.mem_singleton.mp member, is.jstate] at state
    rcases state with h | h | h <;> cases h
  · intro job' member state
    rw [List.mem_singleton.mp member, is.jstate] at state
    cases state

theorem jobs_request {job : Job} (named : Plain me.systemName) (inv : SideInv me peer db)
    (row : IsRequestRow env db job) : Jobs me peer [job] := by
  obtain ⟨i, si, member, js, -, -, made⟩ := row
  have four : Plain (ascii "4") := by decide
  rw [inv.selfinfo] at made
  exact jobs_consensus (consensusJob_ok four named (inv.entries si member).1 made) (.inl ⟨rfl, rfl⟩)

theorem pending_request (name : IsName peer.systemName) (capacity : IsInt4 peer.systemCapacity)
    (jobs : Jobs me peer db.jobScheduler) {request : Job} (member : request ∈ pending "4" db) :
    messageSource request.jobdata = peer.systemName ∧
      capacityField request.jobdata = .ok peer.systemCapacity := by
  obtain ⟨inside, state, type⟩ := Requests.mem_pending.mp member
  obtain ⟨⟨-, -, kind, destination, asked, carries, fits⟩, same⟩ := jobs.identified request inside state
  have four : kind = ascii "4" ∧ asked = peer.systemCapacity := by
    rcases fits with four | ⟨rfl, -⟩
    · exact four
    · rw [carries.type, type] at same
      exact absurd same (by decide)
  rw [four.2] at carries
  refine ⟨?_, carries.capacityField capacity⟩
  rw [carries.source, lpad_of_length name.length]

theorem pending_reply (range : IsInt4 (min peer.systemCapacity me.systemCapacity))
    (jobs : Jobs me peer db.jobScheduler) {reply : Job} (member : reply ∈ pending "5" db) :
    capacityField reply.jobdata = .ok (min peer.systemCapacity me.systemCapacity) := by
  obtain ⟨inside, state, type⟩ := Requests.mem_pending.mp member
  obtain ⟨⟨-, -, kind, destination, asked, carries, fits⟩, same⟩ := jobs.identified reply inside state
  have five : asked = min peer.systemCapacity me.systemCapacity := by
    rcases fits with ⟨rfl, -⟩ | five
    · rw [carries.type, type] at same
      exact absurd same (by decide)
    · exact five.2
  rw [five] at carries
  exact carries.capacityField range

theorem jobs_finish (digit : String) (jobs : Jobs me peer db.jobScheduler) :
    Jobs me peer (finishPending digit db).jobScheduler :=
  jobs.evolves (evolves_finishPending digit db : Evolves quiet (fun _ => False) _ _) fun _ h => h.elim

theorem entries_map {rows : List SysInfo} {condition : SysInfo → Bool}
    {change : SysInfo → SysInfo} (entries : Entries me peer rows)
    (name : ∀ si, (change si).systemName = si.systemName)
    (written : ∀ si ∈ rows, condition si = true → ∀ capacity,
      (change si).systemCapacity = some capacity →
      capacity = 0 ∨ capacity = min me.systemCapacity peer.systemCapacity) :
    Entries me peer (rows.map fun si => if condition si then change si else si) := by
  intro si member
  obtain ⟨old, inside, rfl⟩ := List.mem_map.mp member
  split
  · next holds =>
      rw [name]
      exact ⟨(entries old inside).1, fun _ => written old inside holds⟩
  · exact entries old inside

theorem entries_upsert (name : IsName peer.systemName) {r : Request}
    (source : r.sourceName = peer.systemName) (entries : Entries me peer db.sysinfo)
    (done : upsertSysinfo [(r, some (min me.systemCapacity peer.systemCapacity))] db
      (r, some (min me.systemCapacity peer.systemCapacity)) = .ok db') :
    Entries me peer db'.sysinfo := by
  have whole : rtrim (lpad r.sourceName 5) = r.sourceName := by
    rw [source, lpad_of_length name.length, name.trimmed]
  rcases upsertSysinfo_ok done with ⟨found, read, -, rfl⟩ | ⟨new, rfl, -, rfl⟩
  · obtain rfl := (scalar_filter read).2 (by simp [whole])
    rw [(writeSysinfo_ok db _ _).2]
    exact entries_map entries (fun _ => rfl) fun si _ _ capacity same =>
      .inr (Option.some.inj same).symm
  · rw [(onlySysinfo_createComms _ _).2]
    intro si member
    rcases List.mem_append.mp member with old | new
    · exact entries si old
    · rw [List.mem_singleton.mp new]
      refine ⟨?_, fun _ capacity same => .inr (Option.some.inj same).symm⟩
      rw [whole, source]
      exact name.plain

theorem inv_answerRequests (own : Plain me.systemName) (name : IsName peer.systemName)
    (capacity : IsInt4 peer.systemCapacity) (inv : SideInv me peer db)
    (done : answerRequests env db = .ok db') : SideInv me peer db' := by
  rcases answerRequests_ok done with ⟨-, rfl⟩ | ⟨request, r, reply, u, v, one, read, written, made,
    inserted, rfl⟩
  · exact ⟨inv.selfinfo, inv.entries, jobs_finish "4" inv.jobs⟩
  · have member : request ∈ pending "4" db := one ▸ List.mem_singleton.mpr rfl
    obtain ⟨source, field⟩ := pending_request name capacity inv.jobs member
    have fields : r.rcapacity = peer.systemCapacity ∧ r.sourceName = peer.systemName := by
      simp only [requestOf, field, source, bind_ok, pure_ok] at read
      obtain ⟨_, same, _, -, _, -, rfl⟩ := read
      exact ⟨(Except.ok.inj same).symm, rfl⟩
    have frame := upsertSysinfo_frame written
    obtain ⟨rows, only, -, -⟩ := insertJob_ok inserted
    have five : Plain (ascii "5") := by decide
    rw [fields.1, inv.selfinfo, Requests.smaller_eq_min, min_comm] at written
    rw [replyTo, fields.1, inv.selfinfo, Requests.smaller_eq_min, min_comm, source] at made
    have is := consensusJob_ok five own name.plain made
    refine ⟨?_, ?_, ?_⟩
    · rw [finishPending, (onlyJobs_update _ _ _).selfinfo, only.selfinfo, frame.selfinfo]
      exact inv.selfinfo
    · rw [finishPending, (onlyJobs_update _ _ _).sysinfo, only.sysinfo]
      exact entries_upsert name fields.2 inv.entries written
    · apply jobs_finish
      rw [rows, frame.jobScheduler]
      exact inv.jobs.append (jobs_consensus is (.inr ⟨rfl, rfl⟩))

theorem mem_cteSysinfo {cte : List (Int × Int)} (done : cteSysinfo db = .ok cte) {row : Int × Int}
    (member : row ∈ cte) : ∃ js ∈ pending "5" db, capacityField js.jobdata = .ok row.1 := by
  unfold cteSysinfo at done
  obtain ⟨parts, read, rest⟩ := bind_ok.mp done
  rw [← pure_ok.mp rest] at member
  obtain ⟨part, inside, within⟩ := List.mem_flatten.mp member
  obtain ⟨js, present, made⟩ := forall₂_mem_right (mapM_ok.mp read) inside
  unfold cteRow at made
  obtain ⟨address, -, last⟩ := bind_ok.mp made
  obtain ⟨si, -, fields⟩ := forall₂_mem_right (mapM_ok.mp last) within
  simp only [bind_ok, pure_ok] at fields
  obtain ⟨capacity, known, port, -, rfl⟩ := fields
  exact ⟨js, present, known⟩

theorem inv_takeReplies (range : IsInt4 (min peer.systemCapacity me.systemCapacity))
    (inv : SideInv me peer db) (done : takeReplies db = .ok db') : SideInv me peer db' := by
  obtain ⟨u, applied, rfl⟩ := takeReplies_ok done
  have frame := applyReplies_frame applied
  have entries : Entries me peer u.sysinfo := by
    rcases applyReplies_ok applied with rfl | ⟨reply, read, -, rfl⟩
    · exact inv.entries
    · rw [(writeSysinfo_ok db _ _).2]
      refine entries_map inv.entries (fun _ => rfl) fun si _ _ capacity same => ?_
      obtain ⟨js, member, field⟩ := mem_cteSysinfo read (List.mem_singleton.mpr rfl)
      rw [pending_reply range inv.jobs member] at field
      rw [← Option.some.inj same, ← Except.ok.inj field]
      exact .inr (min_comm _ _)
  refine ⟨frame.selfinfo.trans inv.selfinfo, entries, jobs_finish "5" ?_⟩
  rw [frame.jobScheduler]
  exact inv.jobs

theorem inv_promote (own : Plain me.systemName) (inv : SideInv me peer db)
    (done : promote env db = .ok db') : SideInv me peer db' := by
  obtain ⟨evolves, only⟩ := promote_ok (w := ⟨true, true⟩) rfl done
  exact ⟨only.selfinfo.trans inv.selfinfo, only.sysinfo ▸ inv.entries,
    inv.jobs.evolves evolves fun _ row => jobs_request own inv row⟩

theorem inv_runJobs (own : Plain me.systemName) (name : IsName peer.systemName)
    (mine : IsInt4 me.systemCapacity) (capacity : IsInt4 peer.systemCapacity)
    (inv : SideInv me peer db) (done : FileSharing.runJobs env db = .ok db') :
    SideInv me peer db' := by
  have range : IsInt4 (min peer.systemCapacity me.systemCapacity) := by
    rcases min_choice peer.systemCapacity me.systemCapacity with h | h
    · rw [h]; exact capacity
    · rw [h]; exact mine
  unfold FileSharing.runJobs at done
  obtain ⟨a, promoted, rest⟩ := bind_ok.mp done
  obtain ⟨b, answered, rest⟩ := bind_ok.mp rest
  obtain ⟨c, replied, rest⟩ := bind_ok.mp rest
  obtain ⟨d, split, managed⟩ := bind_ok.mp rest
  have first := inv_promote own inv promoted
  have third := inv_takeReplies range (inv_answerRequests own name capacity first answered) replied
  obtain ⟨made, onlySplit⟩ := splitJobs_ok (w := ⟨true, true⟩) rfl split
  have conns := manageConns_frame managed
  refine ⟨conns.selfinfo.trans (onlySplit.selfinfo.trans third.selfinfo), ?_, ?_⟩
  · rw [conns.sysinfo, onlySplit.sysinfo]
    exact third.entries
  · rw [conns.jobScheduler]
    exact third.jobs.evolves made fun _ row => jobs_message row

theorem inv_updateStatus (inv : SideInv me peer db) (id : Uuid) (status : Int) :
    SideInv me peer (db.updateStatus id status) := by
  refine ⟨inv.selfinfo, inv.entries, ?_⟩
  constructor
  · intro job member state
    rcases mem_updateStatus member with old | settled | settled
    · exact inv.jobs.outgoing job old state
    · cases settled.symm.trans state
    · cases settled.symm.trans state
  · intro job member state
    rcases mem_updateStatus member with old | settled | settled
    · exact inv.jobs.incoming job old state
    · rw [settled] at state
      rcases state with h | h | h <;> cases h
    · rw [settled] at state
      rcases state with h | h | h <;> cases h
  · intro job member state
    rcases mem_updateStatus member with old | settled | settled
    · exact inv.jobs.identified job old state
    · cases settled.symm.trans state
    · cases settled.symm.trans state

theorem inv_storeData {id : Uuid} {fd : Int} {data : Bytea} (inv : SideInv me peer db)
    (message : MessageOf peer me data)
    (done : db.storeData id fd (data.takeWhile (· ≠ 0)) = .ok db') : SideInv me peer db' := by
  obtain ⟨only, job, appended, -, stored, -, state⟩ := storeData_ok done
  have whole : data.takeWhile (· ≠ 0) = data := by
    refine List.takeWhile_eq_self_iff.mpr fun c member => ?_
    have clean := message.1 c member
    simp only [ne_eq, decide_not, Bool.not_eq_true', decide_eq_false_iff_not]
    rintro rfl
    exact absurd clean (by decide)
  rw [whole] at stored
  refine ⟨only.selfinfo.trans inv.selfinfo, only.sysinfo ▸ inv.entries, ?_⟩
  rw [appended]
  refine inv.jobs.append ⟨?_, ?_, ?_⟩
  · intro job' member sending
    rw [List.mem_singleton.mp member, state] at sending
    cases sending
  · intro job' member _
    rw [List.mem_singleton.mp member, stored]
    exact message
  · intro job' member known
    rw [List.mem_singleton.mp member, state] at known
    cases known

theorem inv_sendFile {id : Uuid} {fileName destination : Text} (inv : SideInv me peer db)
    (done : db.sendFile id fileName destination = .ok db') : SideInv me peer db' := by
  obtain ⟨only, same | ⟨job, appended, -, -, state, -⟩⟩ := sendFile_ok done
  · exact ⟨only.selfinfo.trans inv.selfinfo, only.sysinfo ▸ inv.entries, same ▸ inv.jobs⟩
  · refine ⟨only.selfinfo.trans inv.selfinfo, only.sysinfo ▸ inv.entries, ?_⟩
    rw [appended]
    refine inv.jobs.append (Jobs.of_other fun job' member => ?_)
    rw [List.mem_singleton.mp member, state]
    exact ⟨nofun, (by rintro (h | h | h) <;> cases h), nofun⟩

end Steps

section Run

variable {own : Side → SelfInfo} {s t : State}

theorem other_other (side : Side) : side.other.other = side := by
  cases side <;> rfl

theorem inv_setDb (inv : Inv own s) {side : Side} {result : Sql Db}
    (kept : ∀ db, result = .ok db → SideInv (own side) (own side.other) db) :
    Inv own (s.setDb side result) := by
  cases result with
  | error e => exact inv
  | ok db =>
      refine ⟨fun other => ?_, inv.sent⟩
      by_cases same : other = side
      · subst same
        simpa [State.setDb] using kept db rfl
      · simpa [State.setDb, Function.update_of_ne same] using inv.sides other

theorem inv_step (config : Config own) (inv : Inv own s) {a : Action}
    (moved : step s a = some t) : Inv own t := by
  cases a with
  | runJobs side env =>
      obtain rfl := Option.some.inj moved
      exact inv_setDb inv fun db done => inv_runJobs (config.name side).plain
        (config.name side.other) (config.capacity side) (config.capacity side.other)
        (inv.sides side) done
  | importFile side file =>
      obtain rfl := Option.some.inj moved
      refine inv_setDb inv fun db done => ?_
      rw [importFile_ok done]
      exact ⟨(inv.sides side).selfinfo, (inv.sides side).entries, (inv.sides side).jobs⟩
  | sendFile side id fileName destination =>
      obtain rfl := Option.some.inj moved
      exact inv_setDb inv fun db done => inv_sendFile (inv.sides side) done
  | initialSender side si job whole status =>
      simp only [step] at moved
      split at moved
      · next ready =>
          obtain rfl := Option.some.inj moved
          have sides (other : Side) : SideInv (own other) (own other.other)
              (Function.update s.db side ((s.db side).updateStatus job.jobid status) other) := by
            by_cases same : other = side
            · subst same
              simpa using inv_updateStatus (inv.sides other) job.jobid status
            · simpa [Function.update_of_ne same] using inv.sides other
          have message : MessageOf (own side) (own side.other) (job.jobdata.take ismessageSize) := by
            simp only [Db.isGetInfo, List.mem_flatMap, List.mem_map, List.mem_filter] at ready
            obtain ⟨found, -, job', ⟨inside, test⟩, same⟩ := ready
            obtain ⟨rfl, rfl⟩ := Prod.mk.inj same
            simp only [Bool.and_eq_true, decide_eq_true_eq] at test
            have known := (inv.sides side).jobs.outgoing job' inside test.1
            rwa [List.take_of_length_le (le_of_eq known.2.1)]
          refine ⟨sides, fun other data member => ?_⟩
          cases whole with
          | false => exact inv.sent other data member
          | true =>
              by_cases same : other = side.other
              · subst same
                simp only [if_true, Function.update_self] at member
                rcases List.mem_cons.mp member with rfl | old
                · rwa [other_other]
                · exact inv.sent side.other data old
              · simp only [if_true, Function.update_of_ne same] at member
                exact inv.sent other data member
      · cases moved
  | initialReceiver side id fd data =>
      simp only [step] at moved
      split at moved
      · next arrived =>
          obtain rfl := Option.some.inj moved
          exact inv_setDb inv fun db done =>
            inv_storeData (inv.sides side) (inv.sent side data arrived.1) done
      · cases moved

theorem inv_start (start : Start own s) : Inv own s := by
  refine ⟨fun side => ⟨start.selfinfo side, fun si member => ?_, ?_⟩, fun side data member => ?_⟩
  · refine ⟨start.named side si member, fun peer capacity same => ?_⟩
    rw [(start.unknown side si member peer).1] at same
    exact .inl (Option.some.inj same).symm
  · exact Jobs.of_other (start.jobs side)
  · rw [start.sent side] at member
    cases member

/-- Whatever one side holds for the other is 0 or the minimum of the two capacities. -/
theorem capacities_agree (config : Config own) (start : Start own s) {actions : List Action}
    (done : run step s actions = some t) (side : Side) :
    ∀ si ∈ (t.db side).sysinfo, si.systemName = (own side.other).systemName → ∀ capacity,
      si.systemCapacity = some capacity → capacity ≠ 0 →
      capacity = min (own .a).systemCapacity (own .b).systemCapacity := by
  intro si member name capacity holds nonzero
  have inv := run_keeps (fun _ _ _ kept moved => inv_step config kept moved) (inv_start start) done
  have agreed := ((inv.sides side).entries si member).2 name capacity holds
  rcases agreed with zero | known
  · exact absurd zero nonzero
  · rw [known]
    cases side with
    | a => rfl
    | b => exact min_comm _ _

end Run

def sampleOwn : Side → SelfInfo
  | .a => Db.sampleDb.selfinfo
  | .b => Requests.peerM1

def sampleStart : State where
  db := fun
    | .a => { Db.sampleDb with
        sysinfo := [⟨ascii "   M1", 16843009, some 0, 7000, some 0⟩], files := [⟨ascii "f", [1]⟩] }
    | .b => Db.installed (Uuid.ofNat 0) Requests.peerM1
  sent := fun _ => []

def messageRow (statement : Nat) (type : String) (me peer : SelfInfo) : Job :=
  match consensusJob sampleEnv (sampleEnv.uuid statement 0) (ascii type) 32768 me peer.systemName
    (Uuid.ofNat 0) with
  | .ok job => job
  | .error _ => ⟨Uuid.ofNat 0, [], .D, [], [], Uuid.ofNat 0, [], []⟩

def requestRow : Job := messageRow 0 "4" (sampleOwn .a) (sampleOwn .b)
def replyRow : Job := messageRow 1 "5" (sampleOwn .b) (sampleOwn .a)

/-- M3 sends a file to M1: a request, its reply, and the passes around them. -/
def exchange : List Action :=
  [.sendFile .a (Uuid.ofNat 1) (ascii "f") (ascii "M1"), .runJobs .a sampleEnv,
    .initialSender .a ⟨ascii "   M1", 16843009, some 0, 7000, some 0⟩ requestRow true 147,
    .initialReceiver .b (Uuid.ofNat 2) 5 requestRow.jobdata, .runJobs .b sampleEnv,
    .initialSender .b ⟨ascii "   M3", 2130706433, some 6001, 7000, some 32768⟩ replyRow true 147,
    .initialReceiver .a (Uuid.ofNat 3) 5 replyRow.jobdata, .runJobs .a sampleEnv]

theorem exchange_agrees :
    ∃ t, run step sampleStart exchange = some t ∧
      (t.db .a).sysinfo = [⟨ascii "   M1", 16843009, some 6101, 7000, some 32768⟩] ∧
      ∀ side, ∀ si ∈ (t.db side).sysinfo, si.systemName = (sampleOwn side.other).systemName →
        ∀ capacity, si.systemCapacity = some capacity → capacity ≠ 0 →
        capacity = min (sampleOwn .a).systemCapacity (sampleOwn .b).systemCapacity := by
  have after : (run step sampleStart exchange).map (fun t => (t.db .a).sysinfo) =
      some [⟨ascii "   M1", 16843009, some 6101, 7000, some 32768⟩] := by decide +kernel
  obtain ⟨t, done, known⟩ := Option.map_eq_some_iff.mp after
  have config : Config sampleOwn := by
    constructor
    · rintro (_ | _)
      · exact ⟨rfl, by decide, by decide⟩
      · exact ⟨rfl, by decide, by decide⟩
    · rintro (_ | _) <;> decide
  have start : Start sampleOwn sampleStart := by
    constructor
    · rintro (_ | _) <;> rfl
    · rintro (_ | _) <;> decide
    · rintro (_ | _) <;> decide
    · rintro (_ | _) <;> decide
    · rintro (_ | _) <;> rfl
  exact ⟨t, done, known, capacities_agree config start done⟩

end Agreement

end FileSharing
