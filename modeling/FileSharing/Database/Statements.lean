import FileSharing.Database.RunJobs

/-! The prepared statements of the C programs, each with the parameters it is given. -/

namespace FileSharing

open RunJobs

namespace Db

def root (db : Db) : Sql (Option Job) :=
  scalar (db.jobScheduler.filter fun job => job.jparentJobid = job.jobid)

def insertUnderRoot (db : Db) (job : Job → Job) : Sql Db := do
  match ← db.root with
  | none => .error .notNullViolation
  | some root => db.insertJob (job root)

def importFile (db : Db) (file : File) : Sql Db :=
  if db.files.any fun f => f.fileName = file.fileName then .error .uniqueViolation
  else .ok { db with files := db.files ++ [file] }

/-- `send_file` of `user_program`: nothing is inserted for a file that is not there. -/
def sendFile (db : Db) (id : Uuid) (fileName destination : Text) : Sql Db := do
  if db.files.any fun f => f.fileName = fileName then
    let jobdata ← byteain fileName
    db.insertUnderRoot fun root =>
      { jobid := id, jobdata := jobdata, jstate := .S, jtype := typeField "6",
        jsource := root.jsource, jparentJobid := root.jobid,
        jdestination := lpad destination 5, jpriority := ascii "5" }
  else return db

def updateJobPriority (db : Db) (id : Uuid) (priority : Text) : Db :=
  db.updateJobs (fun job => job.jparentJobid = id || job.jobid = id)
    fun job => { job with jpriority := priority }

/-- `store_data` of `initial_receiver` and `r_insert_data` of `processor_r`. -/
def storeData (db : Db) (id : Uuid) (fd : Int) (data : Bytea) : Sql Db :=
  db.insertUnderRoot fun root =>
    { jobid := id, jobdata := data, jstate := .N1, jtype := ascii "0", jsource := intText fd,
      jparentJobid := root.jobid, jdestination := ascii "0", jpriority := ascii "5" }

/-- `s_update_job_status2` of `processor_s` and `update_status` of `initial_sender`. -/
def updateStatus (db : Db) (id : Uuid) (status : Int) : Db :=
  db.updateJobs (fun job => job.jobid = id)
    fun job => { job with jstate := if status > 0 then .C else .D }

/-- `s_update_job_status1`. -/
def appendW (db : Db) (id : Uuid) : Db :=
  db.updateJobs (fun job => job.jobid = id) fun job => { job with jstate := .W job.jstate }

/-- `s_get_info` before its `ORDER BY` and `LIMIT`. -/
def sGetInfo (db : Db) : List (SendingConn × Job) :=
  db.sendingConns.flatMap fun sc => (db.jobScheduler.filter fun js =>
    js.jstate = .S4 && sc.scstatus = 2 && db.sysinfo.any fun si =>
      js.jdestination = si.systemName && sc.sipaddr = si.ipaddress).map (sc, ·)

def sUpdateConns (db : Db) (ipaddress fd status : Int) : Db :=
  { db with sendingConns := db.sendingConns.map fun sc =>
      if sc.sipaddr = ipaddress then { sc with scstatus := status, sfd := fd } else sc }

def sUpdateComms (db : Db) (scommid : Nat) : Db :=
  { db with sendersComms := db.sendersComms.map fun sm =>
      if sm.scommid = scommid then { sm with mtype := .W sm.mtype } else sm }

def sDeleteComms (db : Db) (scommid : Nat) : Db :=
  { db with sendersComms := db.sendersComms.filter fun sm => sm.scommid ≠ scommid }

/-- `pr_getcomms`: deletes one row and returns it. The query has no order, so the row is
a parameter. -/
def prGetcomms (db : Db) (rcomid : Nat) : Option (ReceiversComm × Db) :=
  (db.receiversComms.find? fun row => row.rcomid = rcomid).map fun row => (row, { db with
    receiversComms := db.receiversComms.filter fun r => r.rcomid ≠ row.rcomid })

def rInsertConns (db : Db) (fd ipaddr status : Int) : Db :=
  if db.receivingConns.any fun rc => rc.rfd = fd then
    { db with receivingConns := db.receivingConns.map fun rc =>
        if rc.rfd = fd then { rc with rcstatus := status } else rc }
  else { db with receivingConns := db.receivingConns ++ [⟨fd, ipaddr, status⟩] }

def isGetInfo (db : Db) : List (SysInfo × Job) :=
  db.sysinfo.flatMap fun si => (db.jobScheduler.filter fun js =>
    js.jstate = .S5 && js.jdestination = si.systemName).map (si, ·)

instance lawfulInfo : LawfulBEq (SysInfo × Job) := inferInstance

end Db

end FileSharing
