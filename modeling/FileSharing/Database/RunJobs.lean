import FileSharing.Database.Message

/-! The function `run_jobs`, statement by statement. A statement that raises rolls the
whole transaction back. -/

namespace FileSharing

namespace RunJobs

/-- A scalar subquery: no row is NULL and two rows are an error. -/
def scalar {α : Type} : List α → Sql (Option α)
  | [] => .ok none
  | [a] => .ok (some a)
  | _ => .error .cardinality

def hashMatches (data : Bytea) : Bool := encode (substr data 1 32) = md5 (data.drop 32)

/-- N-1 to N-2 or D. -/
def checkHash (db : Db) : Db :=
  let db := db.updateJobs (fun job => job.jstate = .N1 && hashMatches job.jobdata)
    fun job => { job with jstate := .N2 }
  db.updateJobs (fun job => job.jstate = .N1 && !hashMatches job.jobdata)
    fun job => { job with jstate := .D }

def rootDestinations (db : Db) : List Text :=
  (db.jobScheduler.filter fun job => job.jobid = job.jparentJobid).map Job.jdestination

/-- N-2 to N-3 or S-1. -/
def route (db : Db) : Db :=
  let db := db.updateJobs
    (fun job => job.jstate = .N2 && messageDestination job.jobdata ∈ rootDestinations db)
    fun job => { job with jstate := .N3 }
  db.updateJobs
    (fun job => job.jstate = .N2 && messageDestination job.jobdata ∉ rootDestinations db)
    fun job => { job with jstate := .S1, jdestination := messageDestination job.jobdata }

/-- N-3 to N-4. -/
def identifyType (db : Db) : Db :=
  db.updateJobs (fun job => job.jstate = .N3)
    fun job => { job with jstate := .N4, jtype := messageType job.jobdata }

def chunkCount (data : Bytea) : Sql Int := int4in (encode (substr data 163 10))

def typeField (digit : String) : Text := lpad (ascii digit) 5

def completedChildren (db : Db) (parent : Uuid) : Nat :=
  (db.jobScheduler.filter fun js => js.jparentJobid = parent && js.jstate = .C).length

/-- The rows of the self-join that `GROUP BY jparent_jobid, jobdata` puts with `js1`. -/
def groupCount (db : Db) (js1 : Job) : Nat :=
  (db.jobScheduler.filter fun js =>
    js.jparentJobid = js1.jparentJobid && js.jobdata = js1.jobdata).length *
    completedChildren db js1.jparentJobid

def infoMessages (db : Db) : List Job :=
  db.jobScheduler.filter fun js1 => messageType js1.jobdata = typeField "3" &&
    completedChildren db js1.jparentJobid ≠ 0

def completedParents (db : Db) : Sql (List Uuid) := do
  let groups ← (infoMessages db).mapM fun js1 => do
    let chunks ← chunkCount js1.jobdata
    let total ← int4 (chunks + 1)
    return (js1.jparentJobid, decide (total = groupCount db js1))
  return (groups.filter Prod.snd).map Prod.fst

/-- S-2W to C. The subquery is read for the rows in S-2W only: it depends on no row outside of it,
and a plan that evaluates it first may raise its errors even if no job is in S-2W. -/
def completeSplit (db : Db) : Sql Db := do
  if db.jobScheduler.any fun job => job.jstate = .S2W then
    let parents ← completedParents db
    return db.updateJobs (fun job => job.jstate = .S2W && job.jobid ∈ parents)
      fun job => { job with jstate := .C }
  else return db

/-- S-3W to C. -/
def completeSingle (db : Db) : Db :=
  db.updateJobs (fun job => job.jstate = .S3W &&
      db.jobScheduler.any fun child => child.jstate = .C && child.jparentJobid = job.jobid)
    fun job => { job with jstate := .C }

/-- A row of type 4 or 5 in S-5. -/
def consensusJob (env : Env) (id : Uuid) (type : Text) (capacity : Int) (own : SelfInfo)
    (destination : Text) (parent : Uuid) : Sql Job := do
  let jobdata ← createMessage env.now id.text type
    (lpad (intText capacity) 11 ++ lpad (intText own.dataport) 11 ++
      lpad (intText own.ipaddress) 11)
    [] own.systemName destination (ascii "5") (some 147)
  return { jobid := id, jobdata := jobdata, jstate := .S5, jtype := type,
           jsource := own.systemName, jparentJobid := parent, jdestination := destination,
           jpriority := ascii "5" }

def connInfoSending (db : Db) : List (SysInfo × Job) :=
  db.sysinfo.flatMap fun si => (db.jobScheduler.filter fun js =>
    js.jdestination = si.systemName && si.dataport = some 0 && js.jstate = .S).map (si, ·)

/-- A type 4 request for each job in S whose destination has no agreed port. -/
def requestConsensus (env : Env) (db : Db) : Sql Db := do
  let rows ← (connInfoSending db).zipIdx.mapM fun ((si, js), i) =>
    consensusJob env (env.uuid 0 i) (ascii "4") db.selfinfo.systemCapacity db.selfinfo
      si.systemName js.jparentJobid
  db.insertJobs rows

def knownName (db : Db) (name : Text) : Bool := db.sysinfo.any fun si => si.systemName = name

/-- S to S-1. -/
def startKnown (db : Db) : Db :=
  db.updateJobs (fun job => knownName db job.jdestination && job.jstate = .S)
    fun job => { job with jstate := .S1 }

def pending (digit : String) (db : Db) : List Job :=
  db.jobScheduler.filter fun job => job.jstate = .N4 && job.jtype = typeField digit

def capacityField (data : Bytea) : Sql Int := int4in (encode (substr data 115 11))
def portField (data : Bytea) : Sql Int := int4in (encode (substr data 126 11))
def addressField (data : Bytea) : Text := encode (substr data 137 11)

structure Request where
  rcapacity : Int
  rport : Int
  sourceIp : Int
  sourceName : Text
  deriving DecidableEq, Repr

def requestOf (job : Job) : Sql Request := do
  let rcapacity ← capacityField job.jobdata
  let rport ← portField job.jobdata
  let sourceIp ← int4in (addressField job.jobdata)
  return ⟨rcapacity, rport, sourceIp, messageSource job.jobdata⟩

def connInfoReceiving (db : Db) : Sql (List Request) := (pending "4" db).mapM requestOf

def smaller (own rcapacity : Int) : Int := if rcapacity > own then own else rcapacity

/-- Each request with the scalar subquery `data_capacity`, which reads all of them. -/
def connInfo (own : Int) (requests : List Request) : Sql (List (Request × Option Int)) :=
  requests.mapM fun request => do
    let dataCapacity ← scalar (requests.map fun r => smaller own r.rcapacity)
    return (request, dataCapacity)

def writeSysinfo (db : Db) (condition : SysInfo → Bool) (change : SysInfo → SysInfo) : Db :=
  let written := (db.sysinfo.filter condition).map change
  written.foldl Db.createComms
    { db with sysinfo := db.sysinfo.map fun si => if condition si then change si else si }

/-- `INSERT INTO sysinfo … ON CONFLICT (system_name, ipaddress) DO UPDATE`. -/
def upsertSysinfo (info : List (Request × Option Int)) (db : Db)
    (row : Request × Option Int) : Sql Db := do
  let name := rtrim (lpad row.1.sourceName 5)
  let conflict (si : SysInfo) : Bool := si.systemName = name && si.ipaddress = row.1.sourceIp
  if db.sysinfo.any conflict then
    let found ← scalar (info.filter fun ci =>
      ci.1.sourceName = name && ci.1.sourceIp = row.1.sourceIp)
    return writeSysinfo db conflict fun si => { si with
      systemCapacity := found.bind Prod.snd, dataport := found.map fun ci => ci.1.rport }
  else if db.sysinfo.any fun si => si.ipaddress = row.1.sourceIp then
    .error .uniqueViolation
  else
    let si : SysInfo := ⟨name, row.1.sourceIp, some row.1.rport, 7000, row.2⟩
    return Db.createComms { db with sysinfo := db.sysinfo ++ [si] } si

def learnRequests (db : Db) : Sql Db := do
  let requests ← connInfoReceiving db
  let info ← connInfo db.selfinfo.systemCapacity requests
  info.foldlM (upsertSysinfo info) db

def queueReplies (env : Env) (db : Db) : Sql Db := do
  let received ← (pending "4" db).mapM fun job => do
    let rcapacity ← capacityField job.jobdata
    return (rcapacity, messageSource job.jobdata, job.jparentJobid)
  let rows ← received.zipIdx.mapM fun ((_, destination, parent), i) => do
    match ← scalar (received.map fun r => smaller db.selfinfo.systemCapacity r.1) with
    | none => .error .notNullViolation
    | some capacity =>
        consensusJob env (env.uuid 1 i) (ascii "5") capacity db.selfinfo destination parent
  db.insertJobs rows

def finishPending (digit : String) (db : Db) : Db :=
  db.updateJobs (fun job => job.jstate = .N4 && job.jtype = typeField digit)
    fun job => { job with jstate := .C }

/-- The statements about the type 4 requests in N-4. -/
def answerRequests (env : Env) (db : Db) : Sql Db := do
  let db ← learnRequests db
  let db ← queueReplies env db
  return finishPending "4" db

def cteRow (db : Db) (js : Job) : Sql (List (Int × Int)) := do
  let address ← int8in (addressField js.jobdata)
  (db.sysinfo.filter fun si =>
      messageSource js.jobdata = si.systemName && address = si.ipaddress).mapM fun _ => do
    let capacity ← capacityField js.jobdata
    let port ← portField js.jobdata
    return (capacity, port)

def cteSysinfo (db : Db) : Sql (List (Int × Int)) := do
  let rows ← (pending "5" db).mapM (cteRow db)
  return rows.flatten

def waiting (si : SysInfo) : Bool := si.systemCapacity = some 0 && si.dataport = some 0

def applyReplies (db : Db) : Sql Db := do
  let cte ← cteSysinfo db
  if cte.isEmpty || !db.sysinfo.any waiting then return db
  else
    let found ← scalar cte
    return writeSysinfo db waiting fun si => { si with
      systemCapacity := found.map Prod.fst, dataport := found.map Prod.snd }

/-- The statements about the type 5 replies in N-4. -/
def takeReplies (db : Db) : Sql Db := do
  let db ← applyReplies db
  return finishPending "5" db

/-- `jobdata IN (SELECT file_name::bytea FROM files JOIN sysinfo …)`. -/
def measured (db : Db) (test : Int → Int → Bool) (job : Job) : Sql Bool := do
  let pairs := db.files.flatMap fun f =>
    (db.sysinfo.filter fun si => job.jdestination = si.systemName).map (f, ·)
  let names ← pairs.mapM fun (f, si) => do
    let data ← loGet f.fileData
    match si.systemCapacity with
    | none => return none
    | some capacity =>
        let room ← int4 (capacity - 172)
        if test data.length room && capacity ≠ 0 then return some (← byteain f.fileName)
        else return none
  return some job.jobdata ∈ names

/-- S-1 to S-2. -/
def startSplit (db : Db) : Sql Db :=
  db.updateJobsM (fun job => if job.jstate = .S1 then measured db (fun l r => l > r) job
    else return false) fun job => { job with jstate := .S2 }

/-- S-1 to S-3. -/
def startSingle (db : Db) : Sql Db :=
  db.updateJobsM (fun job => if job.jstate = .S1 then measured db (fun l r => l ≤ r) job
    else return false) fun job => { job with jstate := .S3 }

def namesakes (db : Db) (js : Job) : Sql (List (File × SysInfo)) := do
  let named ← db.files.mapM fun fd => return (fd, ← byteain fd.fileName)
  return (named.filter fun fd => fd.2 = js.jobdata).flatMap fun fd =>
    (db.sysinfo.filter fun si => js.jdestination = si.systemName).map fun si => (fd.1, si)

/-- `files fd JOIN job_scheduler js … JOIN sysinfo si …` for the jobs in one state. -/
def joined (db : Db) (state : JState) : Sql (List (File × Job × SysInfo)) := do
  let rows ← (db.jobScheduler.filter fun js => js.jstate = state).mapM fun js => do
    let pairs ← namesakes db js
    return pairs.map fun (fd, si) => (fd, js, si)
  return rows.flatten

/-- A message in S-4 with its parent's columns; its id is the UUID inside the message. -/
def messageJob (mdata : Bytea) (type : Text) (js : Job) : Sql Job := do
  let id ← uuidIn (encode (substr mdata 33 36))
  return { jobid := id, jobdata := mdata, jstate := .S4, jtype := type, jsource := js.jsource,
           jparentJobid := js.jobid, jdestination := js.jdestination,
           jpriority := js.jpriority }

def singleMessage (env : Env) (row : (File × Job × SysInfo) × Nat) : Sql Job := do
  let ((fd, js, si), i) := row
  let data ← loGet fd.fileData
  let mdata ← createMessage env.now (env.uuid 2 i).text (ascii "1") [] data
    (btrim js.jsource) (btrim js.jdestination) js.jpriority si.systemCapacity
  messageJob mdata (ascii "1") js

def singleJob (env : Env) (db : Db) : Sql Db := do
  let rows ← joined db .S3
  let jobs ← rows.zipIdx.mapM (singleMessage env)
  db.insertJobs jobs

/-- `ceil(length::decimal / size)`. -/
def ceilDiv (length size : Int) : Sql Int :=
  if size = 0 then .error .divisionByZero else .ok (-(Int.fdiv (-length) size))

structure Chunk where
  idx : Nat
  js : Job
  systemCapacity : Int
  chunkData : Bytea
  deriving DecidableEq

/-- The rows of `chunk_info` for one row of `par_job`. -/
def chunkInfo (row : File × Job × SysInfo) : Sql (List Chunk) := do
  let (fd, js, si) := row
  let data ← loGet fd.fileData
  match si.systemCapacity with
  | none => return []
  | some capacity =>
      let size ← int4 (capacity - 172)
      let count ← ceilDiv data.length size
      (List.range count.toNat).mapM fun idx => do
        let chunkData ← loGetFrom data (idx * size.toNat) size.toNat
        return ⟨idx, js, capacity, chunkData⟩

def chunkMessage (env : Env) (row : Chunk × Nat) : Sql Job := do
  let (chunk, i) := row
  let mdata ← createMessage env.now (env.uuid 3 i).text (ascii "2")
    (lpad (natText chunk.idx) 8 ++ chunk.js.jobid.text ++
      lpad (natText chunk.chunkData.length) 10)
    chunk.chunkData (btrim chunk.js.jsource) (btrim chunk.js.jdestination) chunk.js.jpriority
    (some chunk.systemCapacity)
  messageJob mdata (ascii "2") chunk.js

def chunkJobs (env : Env) (db : Db) : Sql Db := do
  let rows ← joined db .S2
  let chunks ← rows.mapM chunkInfo
  let jobs ← chunks.flatten.zipIdx.mapM (chunkMessage env)
  db.insertJobs jobs

def infoMessage (env : Env) (row : (File × Job × SysInfo) × Nat) : Sql Job := do
  let ((fd, js, si), i) := row
  let data ← loGet fd.fileData
  match si.systemCapacity with
  | none => .error .notNullViolation
  | some capacity =>
      let size ← int4 (capacity - 172)
      let count ← ceilDiv data.length size
      let mdata ← createMessage env.now (env.uuid 4 i).text (ascii "3")
        (js.jobid.text ++ lpad (natText data.length) 12 ++ lpad (intText count) 10) []
        (btrim js.jsource) (btrim js.jdestination) js.jpriority (some capacity)
      messageJob mdata (ascii "3") js

def infoJobs (env : Env) (db : Db) : Sql Db := do
  let rows ← joined db .S2
  let jobs ← rows.zipIdx.mapM (infoMessage env)
  db.insertJobs jobs

/-- S-2 to S-2W and S-3 to S-3W. -/
def awaitChildren (db : Db) : Db :=
  let db := db.updateJobs (fun job => job.jstate = .S2 && knownName db job.jdestination)
    fun job => { job with jstate := .S2W }
  db.updateJobs (fun job => job.jstate = .S3 && knownName db job.jdestination)
    fun job => { job with jstate := .S3W }

def splitJobs (env : Env) (db : Db) : Sql Db := do
  let db ← startSplit db
  let db ← startSingle db
  let db ← singleJob env db
  let db ← chunkJobs env db
  let db ← infoJobs env db
  return awaitChildren db

def hasReadyJob (db : Db) (si : SysInfo) : Bool :=
  db.jobScheduler.any fun js => js.jstate = .S4 && si.systemName = js.jdestination

def registerConn (db : Db) (ipaddress : Int) : Db :=
  if db.sendingConns.any fun sc => sc.sipaddr = ipaddress then db
  else { db with sendingConns := db.sendingConns ++ [⟨-1, ipaddress, 1⟩] }

def registerConns (db : Db) : Db :=
  ((db.sysinfo.filter (hasReadyJob db)).map SysInfo.ipaddress).dedup.foldl registerConn db

/-- `INSERT INTO senders_comms … ON CONFLICT DO NOTHING`, with the trigger `msg_for_sender2`;
the sequence moves on a conflict too. -/
def insertComm (mtype : MType) (db : Db) (row : Int × Option Int) : Sql Db :=
  match row.2 with
  | none => .error .notNullViolation
  | some mdata2 =>
      if db.sendersComms.any fun sm => sm.mdata1 = row.1 && sm.mdata2 = mdata2 then
        .ok { db with scommidSeq := db.scommidSeq + 1 }
      else .ok { db with
        sendersComms := db.sendersComms ++ [⟨db.scommidSeq, row.1, mdata2, mtype⟩]
        scommidSeq := db.scommidSeq + 1
        noti1sender := db.noti1sender + 1 }

def openRows (db : Db) : List (Int × Option Int) :=
  (db.sysinfo.filter fun si => hasReadyJob db si &&
    db.sendingConns.any fun sc => si.ipaddress = sc.sipaddr && sc.scstatus = 1).map
    fun si => (si.ipaddress, si.dataport)

def openConns (db : Db) : Sql Db := (openRows db).foldlM (insertComm .openConn) db

/-- The open connections whose destination has no job outside C. -/
def closeRows (db : Db) : List (Int × Option Int) :=
  (db.sendingConns.filter fun sc => sc.scstatus = 2 && db.sysinfo.any fun si =>
    sc.sipaddr = si.ipaddress &&
      !db.jobScheduler.any fun js => si.systemName = js.jdestination && js.jstate ≠ .C).map
    fun sc => (sc.sipaddr, some sc.sfd)

def closeConns (db : Db) : Sql Db := (closeRows db).foldlM (insertComm .closeConn) db

/-- The statements about `sending_conns` and `senders_comms`. -/
def manageConns (db : Db) : Sql Db := do
  let db ← openConns (registerConns db)
  closeConns db

/-- The statements up to the type 4 requests in N-4. -/
def promote (env : Env) (db : Db) : Sql Db := do
  let db ← completeSplit (identifyType (route (checkHash db)))
  let db ← requestConsensus env (completeSingle db)
  return startKnown db

end RunJobs

open RunJobs in
def runJobs (env : Env) (db : Db) : Sql Db := do
  let db ← promote env db
  let db ← answerRequests env db
  let db ← takeReplies db
  let db ← splitJobs env db
  manageConns db

end FileSharing
