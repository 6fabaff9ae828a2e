import FileSharing.Database.Mailed
import FileSharing.Library.Measures
import FileSharing.Network.Agreement
import FileSharing.Network.InitialExchange

/-! The program `initial_sender` beside the other programs of its system. -/

namespace FileSharing

open Library RunJobs Mailed

namespace InitialSender

open InitialExchange (exchangeLoop messageSize Possible)

/-- `server_info`, after `read_data_from_database`. -/
structure ServerInfo where
  port : Int
  ipaddress : Int
  uuid : Uuid
  data : Bytea
  deriving DecidableEq

inductive Server where
  | waiting
  | reading
  | serving (servinfo : ServerInfo)
  | settling (servinfo : ServerInfo) (status : Int)
  deriving DecidableEq

structure Attempt where
  servinfo : ServerInfo
  wire : Bytea
  deriving DecidableEq

structure State where
  db : Db
  semLockIsender : Nat
  server : Server
  attempts : List Attempt

inductive Action where
  | database (op : Operation)
  | notify
  | wait
  | getInfo (row : SysInfo × Job)
  | noTuples
  | abort
  | refuse
  | transmit (beyond : Int → UInt8) (sends : List Int)
  | updateStatus
  | updateFails

/-- The buffer was cleared before `memcpy`; what comes after its 147 bytes is not known. -/
def memory (data : Bytea) (beyond : Int → UInt8) (k : Int) : UInt8 :=
  if 0 ≤ k ∧ k < messageSize then data.getD k.toNat 0 else beyond k

def delivered (db : Db) (noti : Nat) : Db := { db with noti1initialsender := noti }

def readData (row : SysInfo × Job) : ServerInfo :=
  ⟨row.1.comssport, row.1.ipaddress, row.2.jobid, row.2.jobdata⟩

/-- `get_info` has no total order, so its row is a parameter; `abort` is a transaction that
fails, `refuse` a call of `socket` or `connect`. -/
def step (s : State) : Action → Option State
  | .database op => (s.db.perform op).map fun db => { s with db := db }
  | .notify =>
      match s.db.noti1initialsender with
      | noti + 1 => some { s with
          semLockIsender := s.semLockIsender + 1, db := delivered s.db noti }
      | 0 => none
  | .wait =>
      match s.server, s.semLockIsender with
      | .waiting, isender + 1 => some { s with semLockIsender := isender, server := .reading }
      | _, _ => none
  | .getInfo row =>
      match s.server with
      | .reading =>
          if row ∈ s.db.isGetInfo then some { s with server := .serving (readData row) } else none
      | _ => none
  | .noTuples =>
      match s.server with
      | .reading => if s.db.isGetInfo = [] then some { s with server := .waiting } else none
      | _ => none
  | .abort =>
      match s.server with
      | .reading => some { s with server := .waiting }
      | _ => none
  | .refuse =>
      match s.server with
      | .serving servinfo => some { s with
          server := .settling servinfo (-1), attempts := s.attempts ++ [⟨servinfo, []⟩] }
      | _ => none
  | .transmit beyond sends =>
      match s.server with
      | .serving servinfo => (exchangeLoop sends).map fun (total, out) => { s with
          server := .settling servinfo (if total ≠ messageSize then -1 else total)
          attempts := s.attempts ++ [⟨servinfo, out.map (memory servinfo.data beyond)⟩] }
      | _ => none
  | .updateStatus =>
      match s.server with
      | .settling servinfo status => some { s with
          server := .waiting, db := s.db.updateStatus servinfo.uuid status }
      | _ => none
  | .updateFails =>
      match s.server with
      | .settling _ _ => some { s with server := .waiting }
      | _ => none

def initial (db : Db) (isender : Nat) : State := ⟨db, isender, .waiting, []⟩

/-- The other programs settle only what waits for its status, and `send` returns what it can. -/
def Allowed (s : State) : Action → Prop
  | .database (.updateStatus id _) =>
      ∃ js ∈ s.db.jobScheduler, js.jobid = id ∧ js.jstate = .S4W
  | .transmit _ sends => ∀ r ∈ sends, Possible r
  | _ => True

def loses : Action → Bool
  | .abort => true
  | .updateFails => true
  | _ => false

/-- `initial_sender` sleeps, and no notification is on its way. -/
structure Resting (s : State) : Prop where
  server : s.server = .waiting
  semLockIsender : s.semLockIsender = 0
  delivered : s.db.noti1initialsender = 0

def Server.servinfo : Server → Option ServerInfo
  | .serving servinfo => some servinfo
  | .settling servinfo _ => some servinfo
  | _ => none

def Server.busy : Server → Nat
  | .waiting => 0
  | _ => 1

def State.turns (s : State) : Nat := s.semLockIsender + s.db.noti1initialsender + s.server.busy

def Carries (db : Db) (servinfo : ServerInfo) (state : JState) : Prop :=
  ∃ js ∈ db.jobScheduler, js.jobid = servinfo.uuid ∧ js.jobdata = servinfo.data ∧
    js.jstate = state ∧ ∃ si ∈ db.sysinfo, si.systemName = js.jdestination ∧
      si.ipaddress = servinfo.ipaddress ∧ si.comssport = servinfo.port

/-- The job is in C if all of the message was written and nothing else, and in D if not. -/
def Told (db : Db) (r : Attempt) : Prop :=
  Carries db r.servinfo (if r.wire = r.servinfo.data then .C else .D)

section Messages

variable {db db' : Db} {servinfo : ServerInfo} {state : JState}

theorem job_unique (keys : db.Keys) {a b : Job} (first : a ∈ db.jobScheduler)
    (second : b ∈ db.jobScheduler) (same : a.jobid = b.jobid) : a = b :=
  List.inj_on_of_nodup_map keys.jobids first second same

def Aside (state : JState) : Prop := state ≠ .S4 ∧ state ≠ .S4W ∧ Fixed state

theorem aside_s5 : Aside .S5 := ⟨nofun, nofun, fixed_s5⟩

theorem aside_told (r : Attempt) : Aside (if r.wire = r.servinfo.data then .C else .D) := by
  split
  · exact ⟨nofun, nofun, fixed_c⟩
  · exact ⟨nofun, nofun, fixed_d⟩

theorem Carries.kept (carries : Carries db servinfo state) (learned : Learned db db')
    (kept : ∀ js ∈ db.jobScheduler, js.jobid = servinfo.uuid → js.jstate = state →
      ∃ js' ∈ db'.jobScheduler, js'.jobid = js.jobid ∧ js'.jobdata = js.jobdata ∧
        js'.jstate = state ∧ js'.jdestination = js.jdestination) : Carries db' servinfo state := by
  obtain ⟨js, member, id, data, known, si, present, name, address, port⟩ := carries
  obtain ⟨js', inside, id', data', known', destination⟩ := kept js member id known
  obtain ⟨si', present', name', address', port'⟩ := learned.kept si present
  exact ⟨js', inside, id'.trans id, data'.trans data, known', si', present',
    name'.trans (name.trans destination.symm), address'.trans address, port'.trans port⟩

theorem carries_attempt {done : Sql Db} (carries : Carries db servinfo state)
    (each : ∀ u, done = .ok u → Carries u servinfo state) :
    Carries (db.attempt done) servinfo state := by
  rcases Db.attempt_cases db done with same | ⟨u, ok, same⟩
  · rwa [same]
  · rw [same]
    exact each u ok

theorem Carries.learned_rows (carries : Carries db servinfo state) (learned : Learned db db')
    (rows : ∀ js ∈ db.jobScheduler, js.jstate = state → js ∈ db'.jobScheduler) :
    Carries db' servinfo state :=
  carries.kept learned fun js member _ known => ⟨js, rows js member known, rfl, rfl, known, rfl⟩

theorem Carries.update (carries : Carries db servinfo state) (condition : Job → Bool)
    {change : Job → Job} (same : ∀ js ∈ db.jobScheduler, js.jobid = servinfo.uuid →
      js.jstate = state → condition js = true → (change js).jobid = js.jobid ∧
        (change js).jobdata = js.jobdata ∧ (change js).jstate = state ∧
        (change js).jdestination = js.jdestination) :
    Carries (db.updateJobs condition change) servinfo state := by
  refine carries.kept (.of_eq rfl) fun js member id known => ?_
  refine ⟨_, List.mem_map_of_mem member, ?_⟩
  split
  · next chosen => exact same js member id known chosen
  · exact ⟨rfl, rfl, known, rfl⟩

theorem carries_perform {op : Operation} (keys : db.Keys) (aside : Aside state)
    (allowed : ∀ id status, op = .updateStatus id status →
      ∃ js ∈ db.jobScheduler, js.jobid = id ∧ js.jstate = .S4W)
    (carries : Carries db servinfo state) (done : db.perform op = some db') :
    Carries db' servinfo state := by
  have learned := (posts_perform done).learned
  have appended {u : Db} {fresh : List Job} (learned : Learned db u)
      (rows : u.jobScheduler = db.jobScheduler ++ fresh) : Carries u servinfo state :=
    carries.learned_rows learned fun js member _ => rows ▸ List.mem_append_left _ member
  have unchanged {u : Db} (rows : u.jobScheduler = db.jobScheduler) (learned : Learned db u) :
      Carries u servinfo state :=
    carries.learned_rows learned fun js member _ => rows ▸ member
  cases op with
  | runJobs env =>
      refine Option.some.inj done ▸ carries_attempt carries fun u ok => ?_
      refine carries.learned_rows (posts_runJobs ok).learned fun js member known => ?_
      exact (runJobs_ok ok).mem_of_stuck member (known ▸ aside.2.2 _)
  | importFile file =>
      refine Option.some.inj done ▸ carries_attempt carries fun u ok => ?_
      exact importFile_ok ok ▸ unchanged rfl (.of_eq rfl)
  | sendFile id fileName destination =>
      refine Option.some.inj done ▸ carries_attempt carries fun u ok => ?_
      obtain ⟨only, same | ⟨job, rows, -⟩⟩ := sendFile_ok ok
      · exact unchanged same (.of_eq only.sysinfo)
      · exact appended (.of_eq only.sysinfo) rows
  | updateJobPriority id priority =>
      exact Option.some.inj done ▸ carries.update _ fun js _ _ known _ => ⟨rfl, rfl, known, rfl⟩
  | storeData id fd data =>
      refine Option.some.inj done ▸ carries_attempt carries fun u ok => ?_
      obtain ⟨only, job, rows, -⟩ := storeData_ok ok
      exact appended (.of_eq only.sysinfo) rows
  | retrieve sc job =>
      simp only [Db.perform] at done
      split at done
      · next found =>
          obtain ⟨-, present, ready, -⟩ := Db.mem_sGetInfo.mp found
          refine Option.some.inj done ▸ carries.update _ fun js member _ known chosen => ?_
          have same := job_unique keys member present (of_decide_eq_true chosen)
          exact absurd (known.symm.trans (same ▸ ready)) aside.1
      · cases done
  | updateStatus id status =>
      obtain ⟨job, present, named, waits⟩ := allowed id status rfl
      refine Option.some.inj done ▸ carries.update _ fun js member _ known chosen => ?_
      have same := job_unique keys member present ((of_decide_eq_true chosen).trans named.symm)
      exact absurd (known.symm.trans (same ▸ waits)) aside.2.1
  | updateConns ipaddress fd status => exact Option.some.inj done ▸ unchanged rfl (.of_eq rfl)
  | updateComms scommid => exact Option.some.inj done ▸ unchanged rfl (.of_eq rfl)
  | deleteComms scommid => exact Option.some.inj done ▸ unchanged rfl (.of_eq rfl)
  | getcomms rcomid =>
      obtain ⟨row, -, -, rfl⟩ := Db.perform_getcomms done
      exact unchanged rfl (.of_eq rfl)
  | insertConns fd ipaddr status =>
      obtain ⟨rows, same⟩ := Db.rInsertConns_frame db fd ipaddr status
      exact Option.some.inj done ▸ same ▸ unchanged rfl (.of_eq rfl)

theorem mem_isGetInfo {row : SysInfo × Job} : row ∈ db.isGetInfo ↔ row.1 ∈ db.sysinfo ∧
    row.2 ∈ db.jobScheduler ∧ row.2.jstate = .S5 ∧ row.2.jdestination = row.1.systemName := by
  obtain ⟨si, js⟩ := row
  simp only [Db.isGetInfo, List.mem_flatMap, List.mem_map, List.mem_filter, Bool.and_eq_true,
    decide_eq_true_eq, Prod.mk.injEq]
  constructor
  · rintro ⟨si', present, js', ⟨member, state, same⟩, rfl, rfl⟩
    exact ⟨present, member, state, same⟩
  · rintro ⟨present, member, state, same⟩
    exact ⟨si, present, js, ⟨member, state, same⟩, rfl, rfl⟩

theorem carries_readData {row : SysInfo × Job} (found : row ∈ db.isGetInfo) :
    Carries db (readData row) .S5 := by
  obtain ⟨present, member, state, same⟩ := mem_isGetInfo.mp found
  exact ⟨row.2, member, rfl, rfl, state, row.1, present, same.symm, rfl, rfl⟩

theorem wanted_zero_iff : wanted db = 0 ↔ db.isGetInfo = [] := by
  rw [wanted, List.countP_eq_zero, List.eq_nil_iff_forall_not_mem]
  constructor
  · intro none row found
    obtain ⟨present, member, state, same⟩ := mem_isGetInfo.mp found
    have known := knownName_iff.mpr ⟨row.1, present, same.symm⟩
    exact none row.2 member (by simp [outgoing, state, known])
  · intro none js member test
    simp only [outgoing, Bool.and_eq_true, decide_eq_true_eq] at test
    obtain ⟨si, present, same⟩ := knownName_iff.mp test.2
    exact none (si, js) (mem_isGetInfo.mpr ⟨present, member, test.1, same.symm⟩)

theorem carries_updateStatus (carries : Carries db servinfo .S5) (status : Int) :
    Carries (db.updateStatus servinfo.uuid status) servinfo (if status > 0 then .C else .D) := by
  obtain ⟨js, member, id, data, -, si, present, rest⟩ := carries
  refine ⟨_, List.mem_map_of_mem member, ?_⟩
  rw [if_pos (by simpa using id)]
  exact ⟨id, data, rfl, si, present, rest⟩

theorem wanted_updateStatus (carries : Carries db servinfo .S5) (status : Int) :
    wanted (db.updateStatus servinfo.uuid status) + 1 ≤ wanted db := by
  obtain ⟨js, member, id, -, state, si, present, name, -⟩ := carries
  have known : knownName db js.jdestination = true := knownName_iff.mpr ⟨si, present, name⟩
  have settled (job : Job) :
      outgoing { job with jstate := if status > 0 then .C else .D } = false := by
    simp only [outgoing, decide_eq_false_iff_not]
    split <;> decide
  apply countP_map_lt (a := js)
  · intro job _ test
    split at test
    · rw [settled job] at test
      cases test
    · exact test
  · exact member
  · have waits : outgoing js = true := by simp [outgoing, state]
    exact (Bool.and_eq_true _ _).mpr ⟨waits, known⟩
  · rw [if_pos (by simpa using id), settled js]
    rfl

end Messages

structure Orderly (s : State) : Prop where
  keys : s.db.Keys
  posted : Posted s.db
  current : ∀ servinfo ∈ s.server.servinfo, Carries s.db servinfo .S5

section Step

variable {s t : State} {a : Action}

inductive Moves (s : State) : Action → State → Prop
  | database {op : Operation} {db : Db} (done : s.db.perform op = some db) :
      Moves s (.database op) { s with db := db }
  | notify {noti : Nat} (count : s.db.noti1initialsender = noti + 1) :
      Moves s .notify { s with
        semLockIsender := s.semLockIsender + 1, db := delivered s.db noti }
  | wait {isender : Nat} (place : s.server = .waiting) (count : s.semLockIsender = isender + 1) :
      Moves s .wait { s with semLockIsender := isender, server := .reading }
  | getInfo {row : SysInfo × Job} (place : s.server = .reading) (found : row ∈ s.db.isGetInfo) :
      Moves s (.getInfo row) { s with server := .serving (readData row) }
  | noTuples (place : s.server = .reading) (none : s.db.isGetInfo = []) :
      Moves s .noTuples { s with server := .waiting }
  | abort (place : s.server = .reading) : Moves s .abort { s with server := .waiting }
  | refuse {servinfo : ServerInfo} (place : s.server = .serving servinfo) :
      Moves s .refuse { s with
        server := .settling servinfo (-1), attempts := s.attempts ++ [⟨servinfo, []⟩] }
  | transmit {beyond : Int → UInt8} {sends : List Int} {servinfo : ServerInfo} {total : Int}
      {out : List Int} (place : s.server = .serving servinfo)
      (looped : exchangeLoop sends = some (total, out)) :
      Moves s (.transmit beyond sends) { s with
        server := .settling servinfo (if total ≠ messageSize then -1 else total)
        attempts := s.attempts ++ [⟨servinfo, out.map (memory servinfo.data beyond)⟩] }
  | updateStatus {servinfo : ServerInfo} {status : Int}
      (place : s.server = .settling servinfo status) :
      Moves s .updateStatus { s with
        server := .waiting, db := s.db.updateStatus servinfo.uuid status }
  | updateFails {servinfo : ServerInfo} {status : Int}
      (place : s.server = .settling servinfo status) :
      Moves s .updateFails { s with server := .waiting }

theorem moves_of_step (done : step s a = some t) : Moves s a t := by
  cases a with
  | database op =>
      obtain ⟨db, performed, rfl⟩ := Option.map_eq_some_iff.mp done
      exact .database performed
  | notify =>
      simp only [step] at done
      split at done
      · next noti count => exact Option.some.inj done ▸ .notify count
      · cases done
  | wait =>
      simp only [step] at done
      split at done
      · next isender place count => exact Option.some.inj done ▸ .wait place count
      · cases done
  | getInfo row =>
      simp only [step] at done
      split at done
      · next place =>
          split at done
          · next found => exact Option.some.inj done ▸ .getInfo place found
          · cases done
      · cases done
  | noTuples =>
      simp only [step] at done
      split at done
      · next place =>
          split at done
          · next none => exact Option.some.inj done ▸ .noTuples place none
          · cases done
      · cases done
  | abort =>
      simp only [step] at done
      split at done
      · next place => exact Option.some.inj done ▸ .abort place
      · cases done
  | refuse =>
      simp only [step] at done
      split at done
      · next servinfo place => exact Option.some.inj done ▸ .refuse place
      · cases done
  | transmit beyond sends =>
      simp only [step] at done
      split at done
      · next servinfo place =>
          obtain ⟨⟨total, out⟩, looped, rfl⟩ := Option.map_eq_some_iff.mp done
          exact .transmit place looped
      · cases done
  | updateStatus =>
      simp only [step] at done
      split at done
      · next servinfo status place => exact Option.some.inj done ▸ .updateStatus place
      · cases done
  | updateFails =>
      simp only [step] at done
      split at done
      · next servinfo status place => exact Option.some.inj done ▸ .updateFails place
      · cases done

theorem Carries.same {db db' : Db} {servinfo : ServerInfo} {state : JState}
    (carries : Carries db servinfo state) (jobs : db'.jobScheduler = db.jobScheduler)
    (sysinfo : db'.sysinfo = db.sysinfo) : Carries db' servinfo state := by
  rwa [Carries, jobs, sysinfo]

theorem orderly_moves (orderly : Orderly s) (allowed : Allowed s a) (moves : Moves s a t) :
    Orderly t := by
  obtain ⟨keys, posted, current⟩ := orderly
  cases moves with
  | @database op db done =>
      refine ⟨Db.keys_perform keys done, (posts_perform done).posted posted, fun info held => ?_⟩
      refine carries_perform keys aside_s5 (fun id status same => ?_) (current info held) done
      subst same
      exact allowed
  | @notify noti count =>
      have rows : (delivered s.db noti).jobScheduler = s.db.jobScheduler := rfl
      exact ⟨keys_same rows keys, fun js member state => (posted js member state).learned (.of_eq rfl),
        current⟩
  | wait place count => exact ⟨keys, posted, nofun⟩
  | getInfo place found =>
      refine ⟨keys, posted, fun info held => ?_⟩
      rw [← Option.some.inj held]
      exact carries_readData found
  | noTuples place none => exact ⟨keys, posted, nofun⟩
  | abort place => exact ⟨keys, posted, nofun⟩
  | refuse place => exact ⟨keys, posted, fun info held => current info (by rwa [place])⟩
  | transmit place looped => exact ⟨keys, posted, fun info held => current info (by rwa [place])⟩
  | @updateStatus servinfo status place =>
      have done : s.db.perform (.updateStatus servinfo.uuid status) =
        some (s.db.updateStatus servinfo.uuid status) := rfl
      exact ⟨Db.keys_perform keys done, (posts_perform done).posted posted, nofun⟩
  | updateFails place => exact ⟨keys, posted, nofun⟩

theorem turns_moves {lost : Nat} (orderly : Orderly s) (covered : wanted s.db ≤ s.turns + lost)
    (moves : Moves s a t) : wanted t.db ≤ t.turns + (lost + if loses a then 1 else 0) := by
  unfold State.turns at *
  cases moves with
  | database done =>
      have counted := (posts_perform done).counted orderly.posted
      simp only [loses, Bool.false_eq_true, if_false]
      omega
  | @notify noti count =>
      have same : wanted (delivered s.db noti) = wanted s.db := rfl
      have left : (delivered s.db noti).noti1initialsender = noti := rfl
      simp only [loses, Bool.false_eq_true, if_false]
      omega
  | wait place count =>
      simp only [loses, place, Server.busy, Bool.false_eq_true, if_false] at *
      omega
  | getInfo place found =>
      simp only [loses, place, Server.busy, Bool.false_eq_true, if_false] at *
      omega
  | noTuples place none =>
      have nothing := wanted_zero_iff.mpr none
      simp only [loses, place, Server.busy, Bool.false_eq_true, if_false] at *
      omega
  | abort place =>
      simp only [loses, place, Server.busy, if_true] at *
      omega
  | refuse place =>
      simp only [loses, place, Server.busy, Bool.false_eq_true, if_false] at *
      omega
  | transmit place looped =>
      simp only [loses, place, Server.busy, Bool.false_eq_true, if_false] at *
      omega
  | @updateStatus servinfo status place =>
      have held : servinfo ∈ s.server.servinfo := by
        rw [place]
        exact rfl
      have fewer := wanted_updateStatus (orderly.current servinfo held) status
      have noti : (s.db.updateStatus servinfo.uuid status).noti1initialsender =
        s.db.noti1initialsender := rfl
      simp only [loses, place, Server.busy, Bool.false_eq_true, if_false, noti] at *
      omega
  | updateFails place =>
      simp only [loses, place, Server.busy, if_true] at *
      omega

theorem turns_run {lost : Nat} {actions : List Action} (orderly : Orderly s)
    (covered : wanted s.db ≤ s.turns + lost) (allowed : Guarded step Allowed s actions)
    (done : run step s actions = some t) :
    Orderly t ∧ wanted t.db ≤ t.turns + (lost + actions.countP loses) := by
  induction actions generalizing s lost with
  | nil =>
      rw [← Option.some.inj done]
      exact ⟨orderly, covered⟩
  | cons a rest ih =>
      obtain ⟨u, head, tail⟩ := run_cons.mp done
      have moves := moves_of_step head
      have more := turns_moves orderly covered moves
      obtain ⟨later, last⟩ := ih (orderly_moves orderly allowed.1 moves) more (allowed.2 u head) tail
      refine ⟨later, last.trans_eq ?_⟩
      rw [List.countP_cons]
      omega

end Step

/-- The steps of `notif` and `initial_sender`. -/
def Inner (_ : State) : Action → Prop
  | .database _ => False
  | .abort => False
  | .updateFails => False
  | .transmit _ sends => ∀ r ∈ sends, Possible r
  | _ => True

def Server.work : Server → Nat
  | .waiting => 0
  | .settling _ _ => 1
  | .serving _ => 2
  | .reading => 3

def State.work (s : State) : Nat :=
  5 * s.db.noti1initialsender + 4 * s.semLockIsender + s.server.work

section Rest

variable {s t : State} {a : Action} {actions : List Action}

theorem Inner.allowed (inner : Inner s a) : Allowed s a := by
  cases a with
  | database op => exact inner.elim
  | transmit beyond sends => exact inner
  | notify => trivial
  | wait => trivial
  | getInfo row => trivial
  | noTuples => trivial
  | abort => trivial
  | refuse => trivial
  | updateStatus => trivial
  | updateFails => trivial

theorem Inner.keeps (inner : Inner s a) : loses a = false := by
  cases a with
  | abort => exact inner.elim
  | updateFails => exact inner.elim
  | database op => rfl
  | transmit beyond sends => rfl
  | notify => rfl
  | wait => rfl
  | getInfo row => rfl
  | noTuples => rfl
  | refuse => rfl
  | updateStatus => rfl

theorem inner_falls : Falls step Inner Orderly State.work := by
  intro s a t orderly inner done
  have moves := moves_of_step done
  refine ⟨orderly_moves orderly inner.allowed moves, ?_⟩
  unfold State.work
  cases moves with
  | database done => exact inner.elim
  | abort place => exact inner.elim
  | updateFails place => exact inner.elim
  | @notify noti count =>
      have left : (delivered s.db noti).noti1initialsender = noti := rfl
      simp only [left]
      omega
  | wait place count =>
      simp only [place, Server.work]
      omega
  | getInfo place found =>
      simp only [place, Server.work]
      omega
  | noTuples place none =>
      simp only [place, Server.work]
      omega
  | refuse place =>
      simp only [place, Server.work]
      omega
  | transmit place looped =>
      simp only [place, Server.work]
      omega
  | @updateStatus servinfo status place =>
      have noti : (s.db.updateStatus servinfo.uuid status).noti1initialsender =
        s.db.noti1initialsender := rfl
      simp only [place, Server.work, noti]
      omega

theorem inner_run (inner : Guarded step Inner s actions) (done : run step s actions = some t) :
    Guarded step Allowed s actions ∧ actions.countP loses = 0 := by
  induction actions generalizing s with
  | nil => exact ⟨trivial, rfl⟩
  | cons a rest ih =>
      obtain ⟨u, head, tail⟩ := run_cons.mp done
      obtain ⟨allowed, none⟩ := ih (inner.2 u head) tail
      constructor
      · refine ⟨inner.1.allowed, fun v moved => ?_⟩
        rwa [← Option.some.inj (head.symm.trans moved)]
      · rw [List.countP_cons, none, inner.1.keeps]
        rfl

theorem resting_of_final (final : Final step Inner s) : Resting s := by
  have place : s.server = .waiting := by
    cases server : s.server with
    | waiting => rfl
    | reading =>
        cases rows : s.db.isGetInfo with
        | nil =>
            have none := final .noTuples trivial
            simp [step, server, rows] at none
        | cons row rest =>
            have none := final (.getInfo row) trivial
            simp [step, server, rows] at none
    | serving servinfo =>
        have none := final .refuse trivial
        simp [step, server] at none
    | settling servinfo status =>
        have none := final .updateStatus trivial
        simp [step, server] at none
  constructor
  · exact place
  · cases count : s.semLockIsender with
    | zero => rfl
    | succ isender =>
        have none := final .wait trivial
        simp [step, place, count] at none
  · cases count : s.db.noti1initialsender with
    | zero => rfl
    | succ noti =>
        have none := final .notify trivial
        simp [step, count] at none

theorem orderly_initial {db : Db} (keys : db.Keys) (isender : Nat)
    (none : ∀ js ∈ db.jobScheduler, js.jstate ≠ .S5) :
    Orderly (initial db isender) ∧ wanted db = 0 := by
  constructor
  · exact ⟨keys, fun js member state => absurd state (none js member), nofun⟩
  · rw [wanted, List.countP_eq_zero]
    intro js member
    simp [outgoing, none js member]

end Rest

/-- In every state of a run that starts without a job in S-5 and in which the other programs settle
only what waits for its status: left to itself, and while no call to the database fails any more,
`initial_sender` comes to rest after a bounded number of steps. Then no message waits for a system
that is known, but for as many as there were failures to read a message or to update its status. -/
theorem wanted_at_rest {db : Db} {isender : Nat} {actions : List Action} {s : State}
    (keys : db.Keys) (none : ∀ js ∈ db.jobScheduler, js.jstate ≠ .S5)
    (done : run step (initial db isender) actions = some s)
    (allowed : Guarded step Allowed (initial db isender) actions) :
    (∀ more t, run step s more = some t → Guarded step Inner s more →
      more.length + t.work ≤ s.work ∧
        (Final step Inner t → Resting t ∧ wanted t.db ≤ actions.countP loses)) ∧
    ∃ more t, run step s more = some t ∧ Guarded step Inner s more ∧ Final step Inner t := by
  obtain ⟨start, zero⟩ := orderly_initial keys isender none
  have covered : wanted (initial db isender).db ≤ (initial db isender).turns + 0 :=
    zero.trans_le (Nat.zero_le _)
  obtain ⟨orderly, reached⟩ := turns_run start covered allowed done
  constructor
  · intro more t further inner
    refine ⟨inner_falls.bounded orderly inner further, fun final => ?_⟩
    have resting := resting_of_final final
    obtain ⟨guarded, kept⟩ := inner_run inner further
    have last := (turns_run orderly reached guarded further).2
    refine ⟨resting, ?_⟩
    simp only [State.turns, resting.server, resting.semLockIsender, resting.delivered, kept,
      Server.busy, Nat.zero_add, Nat.add_zero] at last
    exact last
  · exact inner_falls.ends orderly

instance decidableAllowed (s : State) (a : Action) : Decidable (Allowed s a) :=
  match a with
  | .database (.updateStatus id _) =>
      inferInstanceAs (Decidable (∃ js ∈ s.db.jobScheduler, js.jobid = id ∧ js.jstate = .S4W))
  | .transmit _ sends => inferInstanceAs (Decidable (∀ r ∈ sends, Possible r))
  | .database (.runJobs _) => .isTrue trivial
  | .database (.importFile _) => .isTrue trivial
  | .database (.sendFile _ _ _) => .isTrue trivial
  | .database (.updateJobPriority _ _) => .isTrue trivial
  | .database (.storeData _ _ _) => .isTrue trivial
  | .database (.retrieve _ _) => .isTrue trivial
  | .database (.updateConns _ _ _) => .isTrue trivial
  | .database (.updateComms _) => .isTrue trivial
  | .database (.deleteComms _) => .isTrue trivial
  | .database (.getcomms _) => .isTrue trivial
  | .database (.insertConns _ _ _) => .isTrue trivial
  | .notify => .isTrue trivial
  | .wait => .isTrue trivial
  | .getInfo _ => .isTrue trivial
  | .noTuples => .isTrue trivial
  | .abort => .isTrue trivial
  | .refuse => .isTrue trivial
  | .updateStatus => .isTrue trivial
  | .updateFails => .isTrue trivial

def firstRequest : List Action :=
  [.database (.sendFile (Uuid.ofNat 1) (ascii "f") (ascii "M1")), .database (.runJobs sampleEnv),
    .notify, .wait, .getInfo (⟨ascii "   M1", 16843009, some 0, 7000, some 0⟩, Agreement.requestRow),
    .transmit (fun _ => 0) [100, 47], .updateStatus]

def askingDb : Db := Agreement.sampleStart.db .a

theorem first_request_rests : ∃ s, run step (initial askingDb 0) (firstRequest.take 2) = some s ∧
    ∀ more t, run step s more = some t → Guarded step Inner s more → more.length ≤ 5 := by
  obtain ⟨s, done, work⟩ := Option.map_eq_some_iff.mp
    (by decide +kernel : (run step (initial askingDb 0) (firstRequest.take 2)).map
      (fun s => decide (s.work ≤ 5)) = some true)
  have rests := wanted_at_rest ⟨by decide +kernel, by decide +kernel⟩
    (by decide +kernel) done (by decide +kernel)
  refine ⟨s, done, fun more t further inner => ?_⟩
  have bound := (rests.1 more t further inner).1
  have low := of_decide_eq_true work
  omega

/-- The steps of a run in which the status of each message is stored. -/
def Steady (s : State) (a : Action) : Prop := Allowed s a ∧ a ≠ .updateFails

/-- Each message is attempted once, and the job is told what came of it. -/
structure Faithful (s : State) : Prop where
  orderly : Orderly s
  single : (s.attempts.map fun r => r.servinfo.uuid).Nodup
  sized : ∀ r ∈ s.attempts, r.servinfo.data.length = messageSize
  told : ∀ r ∈ s.attempts, Told s.db r ∨
    ∃ status, s.server = .settling r.servinfo status ∧ (status > 0 ↔ r.wire = r.servinfo.data)

section Faithful

variable {s t : State} {a : Action} {db : Db} {servinfo : ServerInfo}

theorem length_data (posted : Posted db) (carries : Carries db servinfo .S5) :
    servinfo.data.length = messageSize := by
  obtain ⟨js, member, -, data, state, -⟩ := carries
  rw [← data]
  exact (posted js member state).length

theorem message_memory {data : Bytea} (length : data.length = messageSize) (beyond : Int → UInt8) :
    InitialExchange.message (memory data beyond) = data := by
  apply List.ext_getElem
  · rw [InitialExchange.message, List.length_map, length_addresses, length]
  · intro k first second
    have below : k < messageSize := length ▸ second
    simp only [InitialExchange.message, addresses, List.getElem_map, List.getElem_range, zero_add,
      memory]
    rw [if_pos ⟨Int.natCast_nonneg k, by exact_mod_cast below⟩, Int.toNat_natCast]
    rw [List.getD_eq_getElem?_getD, List.getElem?_eq_getElem second, Option.getD_some]

theorem exchangeLoop_status {data : Bytea} {beyond : Int → UInt8} {sends : List Int} {total : Int}
    {out : List Int} (length : data.length = messageSize) (possible : ∀ r ∈ sends, Possible r)
    (looped : exchangeLoop sends = some (total, out)) :
    (if total ≠ messageSize then -1 else total) > 0 ↔ out.map (memory data beyond) = data := by
  obtain ⟨last, count, ends⟩ := InitialExchange.loop_ends le_rfl (by decide) possible
  obtain ⟨rfl, rfl⟩ := Prod.mk.inj (Option.some.inj (ends.runs.symm.trans looped))
  have full := ends.total
  rw [zero_add] at full
  have positive : (if last ≠ messageSize then -1 else last) > 0 ↔ last = messageSize := by
    by_cases same : last = messageSize
    · simp [same, messageSize]
    · simp [same]
  rw [positive, full]
  constructor
  · intro all
    have exact : count = messageSize := by exact_mod_cast all
    rw [exact]
    exact message_memory length beyond
  · intro same
    have size := congrArg List.length same
    rw [List.length_map, length_addresses, length] at size
    exact_mod_cast size

theorem Told.other {r : Attempt} (told : Told db r) (keys : db.Keys)
    (carries : Carries db servinfo .S5) : r.servinfo.uuid ≠ servinfo.uuid := by
  intro same
  obtain ⟨job, present, id, -, state, -⟩ := told
  obtain ⟨js, member, id', -, state', -⟩ := carries
  obtain rfl := job_unique keys present member (id.trans (same.trans id'.symm))
  rw [state'] at state
  split at state
  · cases state
  · cases state

theorem told_updateStatus {r : Attempt} (told : Told db r) (keys : db.Keys)
    (carries : Carries db servinfo .S5) (status : Int) :
    Told (db.updateStatus servinfo.uuid status) r := by
  refine Carries.update told _ fun js _ id _ chosen => ?_
  exact absurd (id.symm.trans (of_decide_eq_true chosen)) (told.other keys carries)

theorem faithful_attempt (faithful : Faithful s) (place : s.server = .serving servinfo)
    {wire : Bytea} {status : Int} (exact : status > 0 ↔ wire = servinfo.data)
    (orderly : Orderly { s with
      server := .settling servinfo status, attempts := s.attempts ++ [⟨servinfo, wire⟩] }) :
    Faithful { s with
      server := .settling servinfo status, attempts := s.attempts ++ [⟨servinfo, wire⟩] } := by
  obtain ⟨before, single, sized, told⟩ := faithful
  have held : servinfo ∈ s.server.servinfo := by
    rw [place]
    exact rfl
  have carries := before.current servinfo held
  have earlier (r : Attempt) (member : r ∈ s.attempts) : Told s.db r := by
    cases told r member with
    | inl known => exact known
    | inr now =>
        obtain ⟨_, other, -⟩ := now
        rw [place] at other
        cases other
  refine ⟨orderly, ?_, fun r member => ?_, fun r member => ?_⟩
  · rw [List.map_append, List.nodup_append]
    refine ⟨single, List.nodup_singleton _, fun uuid inside other last => ?_⟩
    obtain ⟨r, member, rfl⟩ := List.mem_map.mp inside
    rw [List.mem_singleton.mp last]
    exact (earlier r member).other before.keys carries
  · cases List.mem_append.mp member with
    | inl old => exact sized r old
    | inr new =>
        rw [List.mem_singleton.mp new]
        exact length_data before.posted carries
  · cases List.mem_append.mp member with
    | inl old => exact .inl (earlier r old)
    | inr new =>
        rw [List.mem_singleton.mp new]
        exact .inr ⟨status, rfl, exact⟩

/-- A step that neither starts an attempt nor ends one. -/
theorem faithful_between (faithful : Faithful s) (orderly : Orderly t)
    (attempts : t.attempts = s.attempts) (told : ∀ r, Told s.db r → Told t.db r)
    (server : ∀ servinfo status, s.server = .settling servinfo status → t.server = s.server) :
    Faithful t := by
  refine ⟨orderly, attempts ▸ faithful.single, attempts ▸ faithful.sized, fun r member => ?_⟩
  cases faithful.told r (attempts ▸ member) with
  | inl known => exact .inl (told r known)
  | inr now =>
      obtain ⟨status, place, exact⟩ := now
      exact .inr ⟨status, (server _ _ place).trans place, exact⟩

theorem faithful_moves (faithful : Faithful s) (steady : Steady s a) (moves : Moves s a t) :
    Faithful t := by
  have orderly := orderly_moves faithful.orderly steady.1 moves
  have keys := faithful.orderly.keys
  cases moves with
  | @database op db done =>
      refine faithful_between faithful orderly rfl (fun r told => ?_) fun _ _ _ => rfl
      refine carries_perform keys (aside_told r) (fun id status same => ?_) told done
      subst same
      exact steady.1
  | notify count =>
      exact faithful_between faithful orderly rfl (fun _ told => told) fun _ _ _ => rfl
  | wait place count =>
      exact faithful_between faithful orderly rfl (fun _ told => told)
        fun _ _ other => nomatch place.symm.trans other
  | getInfo place found =>
      exact faithful_between faithful orderly rfl (fun _ told => told)
        fun _ _ other => nomatch place.symm.trans other
  | noTuples place none =>
      exact faithful_between faithful orderly rfl (fun _ told => told)
        fun _ _ other => nomatch place.symm.trans other
  | abort place =>
      exact faithful_between faithful orderly rfl (fun _ told => told)
        fun _ _ other => nomatch place.symm.trans other
  | @refuse servinfo place =>
      have held : servinfo ∈ s.server.servinfo := by
        rw [place]
        exact rfl
      have length := length_data faithful.orderly.posted (faithful.orderly.current servinfo held)
      refine faithful_attempt faithful place ?_ orderly
      constructor
      · exact fun positive => absurd positive (by decide)
      · intro empty
        rw [← empty] at length
        cases length
  | @transmit beyond sends servinfo total out place looped =>
      have held : servinfo ∈ s.server.servinfo := by
        rw [place]
        exact rfl
      have length := length_data faithful.orderly.posted (faithful.orderly.current servinfo held)
      exact faithful_attempt faithful place (exchangeLoop_status length steady.1 looped) orderly
  | @updateStatus servinfo status place =>
      have held : servinfo ∈ s.server.servinfo := by
        rw [place]
        exact rfl
      have carries := faithful.orderly.current servinfo held
      refine ⟨orderly, faithful.single, faithful.sized, fun r member => .inl ?_⟩
      cases faithful.told r member with
      | inl known => exact told_updateStatus known keys carries status
      | inr now =>
          obtain ⟨status', place', exact⟩ := now
          obtain ⟨rfl, rfl⟩ := Server.settling.inj (place.symm.trans place')
          have settled := carries_updateStatus carries status
          rwa [if_congr exact rfl rfl] at settled
  | updateFails place => exact absurd rfl steady.2

end Faithful

/-- Over every run, `initial_sender` attempts a message once, with the 147 bytes of its job and at
the address of its destination. The job is then in C if exactly these bytes were written, and in D
if not. -/
theorem attempted_once {db : Db} {isender : Nat} {actions : List Action} {s : State}
    (keys : db.Keys) (none : ∀ js ∈ db.jobScheduler, js.jstate ≠ .S5)
    (done : run step (initial db isender) actions = some s)
    (steady : Guarded step Steady (initial db isender) actions) :
    (s.attempts.map fun r => r.servinfo.uuid).Nodup ∧
    ∀ r ∈ s.attempts, r.servinfo.data.length = messageSize ∧
      (Told s.db r ∨ ∃ status, s.server = .settling r.servinfo status) := by
  have start : Faithful (initial db isender) :=
    ⟨(orderly_initial keys isender none).1, List.nodup_nil, nofun, nofun⟩
  have faithful : Faithful s := guarded_run_keeps (fun _ _ _ kept allowed moved =>
    faithful_moves kept allowed (moves_of_step moved)) start steady done
  refine ⟨faithful.single, fun r member => ⟨faithful.sized r member, ?_⟩⟩
  exact (faithful.told r member).imp_right fun ⟨status, place, _⟩ => ⟨status, place⟩

instance decidableSteady (s : State) (a : Action) : Decidable (Steady s a) :=
  have : Decidable (a ≠ .updateFails) :=
    match a with
    | .updateFails => .isFalse (absurd rfl ·)
    | .database _ => .isTrue nofun
    | .notify => .isTrue nofun
    | .wait => .isTrue nofun
    | .getInfo _ => .isTrue nofun
    | .noTuples => .isTrue nofun
    | .abort => .isTrue nofun
    | .refuse => .isTrue nofun
    | .transmit _ _ => .isTrue nofun
    | .updateStatus => .isTrue nofun
  inferInstanceAs (Decidable (Allowed s a ∧ a ≠ .updateFails))

theorem first_request_attempted : ∃ s, run step (initial askingDb 0) firstRequest = some s ∧
    s.attempts.map Attempt.wire = [Agreement.requestRow.jobdata] ∧
    (s.attempts.map fun r => r.servinfo.uuid).Nodup ∧
    ∀ r ∈ s.attempts, r.servinfo.data.length = messageSize ∧
      (Told s.db r ∨ ∃ status, s.server = .settling r.servinfo status) := by
  obtain ⟨s, done, wires⟩ := Option.map_eq_some_iff.mp
    (by decide +kernel : (run step (initial askingDb 0) firstRequest).map
      (fun s => s.attempts.map Attempt.wire) = some [Agreement.requestRow.jobdata])
  exact ⟨s, done, wires, attempted_once ⟨by decide +kernel, by decide +kernel⟩
    (by decide +kernel) done (by decide +kernel)⟩

end InitialSender

end FileSharing
