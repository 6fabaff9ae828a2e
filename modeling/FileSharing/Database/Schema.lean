import FileSharing.Database.Md5

/-! The tables of `db/build_schema.sql`. A `CHAR(10)` name is kept as the text it
compares as, without trailing blanks; columns that no modelled query reads are left out. -/

namespace FileSharing

def isUuidByte (c : UInt8) : Bool := isDigit c || (97 ≤ c && c ≤ 102) || c == 45

/-- A UUID is its canonical text. -/
structure Uuid where
  text : Text
  length : text.length = 36
  bytes : ∀ c ∈ text, isUuidByte c = true
  deriving DecidableEq

/-- `t::uuid`, for the canonical form. -/
def uuidIn (t : Text) : Sql Uuid :=
  if h : t.length = 36 ∧ ∀ c ∈ t, isUuidByte c = true then .ok ⟨t, h.1, h.2⟩
  else .error .invalidUuid

theorem uuidIn_text (id : Uuid) : uuidIn id.text = .ok id := by
  simp only [uuidIn, dif_pos (And.intro id.length id.bytes)]

theorem plain_uuid (id : Uuid) : Plain id.text := by
  intro c member
  have known := id.bytes c member
  simp only [isUuidByte, Bool.or_eq_true, Bool.and_eq_true, decide_eq_true_eq, beq_iff_eq] at known
  rcases known with (digit | letter) | dash
  · exact isDigit_plain digit
  · simp only [plain, Bool.and_eq_true, decide_eq_true_eq, bne_iff_ne]
    refine ⟨⟨UInt8.le_trans (by decide) letter.1, UInt8.lt_of_le_of_lt letter.2 (by decide)⟩, ?_⟩
    intro same
    exact absurd (same ▸ letter.1) (by decide)
  · subst dash; decide

def Uuid.ofNat (n : Nat) : Uuid where
  text := (List.range 36).map fun k => UInt8.ofNat (48 + n / 10 ^ k % 10)
  length := by simp
  bytes := by
    intro c member
    obtain ⟨k, -, rfl⟩ := List.mem_map.mp member
    rw [isUuidByte, isDigit_digit (Nat.mod_lt _ (by decide))]
    rfl

/-- The job states; `W j` is the state `jstate || 'W'`. -/
inductive JState where
  | N0 | N1 | N2 | N3 | N4
  | S | S1 | S2 | S3 | S4 | S5
  | C | D
  | W (j : JState)
  deriving DecidableEq, Repr

abbrev JState.S2W : JState := .W .S2
abbrev JState.S3W : JState := .W .S3
abbrev JState.S4W : JState := .W .S4

@[ext]
structure Job where
  jobid : Uuid
  jobdata : Bytea
  jstate : JState
  jtype : Text
  jsource : Text
  jparentJobid : Uuid
  jdestination : Text
  jpriority : Text
  deriving DecidableEq

structure SysInfo where
  systemName : Text
  ipaddress : Int
  dataport : Option Int
  comssport : Int
  systemCapacity : Option Int
  deriving DecidableEq, Repr

structure SelfInfo where
  systemName : Text
  ipaddress : Int
  dataport : Int
  systemCapacity : Int
  deriving DecidableEq, Repr

structure File where
  fileName : Text
  fileData : Bytea
  deriving DecidableEq, Repr

structure ReceiversComm where
  rcomid : Nat
  rdata1 : Int
  rdata2 : Int
  deriving DecidableEq, Repr

structure ReceivingConn where
  rfd : Int
  ripaddr : Int
  rcstatus : Int
  deriving DecidableEq, Repr

structure SendingConn where
  sfd : Int
  sipaddr : Int
  scstatus : Int
  deriving DecidableEq, Repr

/-- `mtype`: '1' opens a connection and '2' closes one; `W m` is `mtype || 'W'`. -/
inductive MType where
  | openConn
  | closeConn
  | W (m : MType)
  deriving DecidableEq, Repr

structure SendersComm where
  scommid : Nat
  mdata1 : Int
  mdata2 : Int
  mtype : MType
  deriving DecidableEq, Repr

/-- The tables, the two sequences, and the notifications that are issued and not yet read. -/
structure Db where
  jobScheduler : List Job
  sysinfo : List SysInfo
  selfinfo : SelfInfo
  files : List File
  receiversComms : List ReceiversComm
  receivingConns : List ReceivingConn
  sendingConns : List SendingConn
  sendersComms : List SendersComm
  rcomidSeq : Nat
  scommidSeq : Nat
  noti1sender : Nat
  noti1receiver : Nat
  noti1initialsender : Nat
  deriving DecidableEq

/-- The largest `bytea` or `text` value. -/
def maxField : Nat := 1073741819

def loGet (data : Bytea) : Sql Bytea :=
  if data.length ≤ maxField then .ok data else .error .tooLarge

/-- `lo_get(oid, offset, length)`. -/
def loGetFrom (data : Bytea) (offset count : Nat) : Sql Bytea :=
  loGet ((data.drop offset).take count)

namespace Db

/-- The database that `build_schema.sql` leaves. -/
def installed (root : Uuid) (own : SelfInfo) : Db where
  jobScheduler := [⟨root, ascii "__ROOT__", .N0, ascii "0", own.systemName, root, own.systemName,
    ascii "0"⟩]
  sysinfo := []
  selfinfo := own
  files := []
  receiversComms := []
  receivingConns := []
  sendingConns := []
  sendersComms := []
  rcomidSeq := 1
  scommidSeq := 1
  noti1sender := 0
  noti1receiver := 0
  noti1initialsender := 0

def sampleDb : Db := installed (Uuid.ofNat 0) ⟨ascii "   M3", 2130706433, 6001, 32768⟩

def jobids (db : Db) : List Uuid := db.jobScheduler.map Job.jobid

/-- `INSERT INTO job_scheduler`, with the triggers `msg_for_initial_sender` and `msg_for_sender1`. -/
def insertJob (db : Db) (job : Job) : Sql Db :=
  if job.jobid ∈ db.jobids then .error .uniqueViolation
  else if job.jparentJobid ∉ db.jobids then .error .foreignKeyViolation
  else .ok { db with
    jobScheduler := db.jobScheduler ++ [job]
    noti1initialsender := db.noti1initialsender + if job.jstate = .S5 then 1 else 0
    noti1sender := db.noti1sender + if job.jstate = .S4 then 1 else 0 }

def insertJobs (db : Db) (rows : List Job) : Sql Db := rows.foldlM insertJob db

/-- `UPDATE job_scheduler SET … WHERE …`, with the trigger `msg_for_sender1`. -/
def updateJobs (db : Db) (condition : Job → Bool) (change : Job → Job) : Db :=
  { db with
    jobScheduler := db.jobScheduler.map fun job => if condition job then change job else job
    noti1sender := db.noti1sender + (db.jobScheduler.filter fun job =>
      condition job && (change job).jstate = .S4).length }

def updateJobsM (db : Db) (condition : Job → Sql Bool) (change : Job → Job) : Sql Db := do
  let chosen ← db.jobScheduler.mapM fun job => return (job, ← condition job)
  return { db with
    jobScheduler := chosen.map fun (job, holds) => if holds then change job else job
    noti1sender := db.noti1sender + (chosen.filter fun (job, holds) =>
      holds && (change job).jstate = .S4).length }

/-- The trigger `create_msg_receiver` on a row that `INSERT` or `UPDATE` wrote, followed
by the trigger `msg_for_receiver`. -/
def createComms (db : Db) (row : SysInfo) : Db :=
  match row.systemCapacity with
  | none => db
  | some capacity =>
      if capacity = 0 then db
      else { db with
        receiversComms := db.receiversComms ++ [⟨db.rcomidSeq, row.ipaddress, capacity⟩]
        rcomidSeq := db.rcomidSeq + 1
        noti1receiver := db.noti1receiver + 1 }

end Db

end FileSharing
