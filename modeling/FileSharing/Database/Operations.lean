import FileSharing.Library.Runs
import FileSharing.Database.Evolution

/-! The operations of all programs on one database. -/

namespace FileSharing

open Library

inductive Operation where
  | runJobs (env : Env)
  | importFile (file : File)
  | sendFile (id : Uuid) (fileName destination : Text)
  | updateJobPriority (id : Uuid) (priority : Text)
  | storeData (id : Uuid) (fd : Int) (data : Bytea)
  | retrieve (sc : SendingConn) (job : Job)
  | updateStatus (id : Uuid) (status : Int)
  | updateConns (ipaddress fd status : Int)
  | updateComms (scommid : Nat)
  | deleteComms (scommid : Nat)
  | getcomms (rcomid : Nat)
  | insertConns (fd ipaddr status : Int)

namespace Db

/-- A statement that raises changes nothing. -/
def attempt (db : Db) : Sql Db → Db
  | .ok db' => db'
  | .error _ => db

/-- `retrieve` marks a row of `s_get_info`. -/
def perform (db : Db) : Operation → Option Db
  | .runJobs env => some (db.attempt (FileSharing.runJobs env db))
  | .importFile file => some (db.attempt (db.importFile file))
  | .sendFile id fileName destination => some (db.attempt (db.sendFile id fileName destination))
  | .updateJobPriority id priority => some (db.updateJobPriority id priority)
  | .storeData id fd data => some (db.attempt (db.storeData id fd data))
  | .retrieve sc job => if (sc, job) ∈ db.sGetInfo then some (db.appendW job.jobid) else none
  | .updateStatus id status => some (db.updateStatus id status)
  | .updateConns ipaddress fd status => some (db.sUpdateConns ipaddress fd status)
  | .updateComms scommid => some (db.sUpdateComms scommid)
  | .deleteComms scommid => some (db.sDeleteComms scommid)
  | .getcomms rcomid => (db.prGetcomms rcomid).map Prod.snd
  | .insertConns fd ipaddr status => some (db.rInsertConns fd ipaddr status)

variable {db db' : Db}

theorem attempt_cases (db : Db) (done : Sql Db) :
    db.attempt done = db ∨ ∃ u, done = .ok u ∧ db.attempt done = u := by
  cases done with
  | ok u => exact .inr ⟨u, rfl, rfl⟩
  | error e => exact .inl rfl

theorem perform_getcomms {rcomid : Nat} (done : db.perform (.getcomms rcomid) = some db') :
    ∃ row ∈ db.receiversComms, row.rcomid = rcomid ∧ db' = { db with
      receiversComms := db.receiversComms.filter fun r => r.rcomid ≠ row.rcomid } := by
  obtain ⟨⟨row, u⟩, found, rfl⟩ := Option.map_eq_some_iff.mp done
  obtain ⟨row', chosen, pair⟩ := Option.map_eq_some_iff.mp found
  obtain ⟨rfl, rfl⟩ := Prod.mk.inj pair
  exact ⟨row', List.mem_of_find?_eq_some chosen, by simpa using List.find?_some chosen, rfl⟩

theorem rInsertConns_frame (db : Db) (fd ipaddr status : Int) :
    ∃ rows, db.rInsertConns fd ipaddr status = { db with receivingConns := rows } := by
  unfold rInsertConns
  split
  · exact ⟨_, rfl⟩
  · exact ⟨_, rfl⟩

theorem mem_sGetInfo {sc : SendingConn} {js : Job} : (sc, js) ∈ db.sGetInfo ↔
    sc ∈ db.sendingConns ∧ js ∈ db.jobScheduler ∧ js.jstate = .S4 ∧ sc.scstatus = 2 ∧
      ∃ si ∈ db.sysinfo, js.jdestination = si.systemName ∧ sc.sipaddr = si.ipaddress := by
  simp only [sGetInfo, List.mem_flatMap, List.mem_map, List.mem_filter, Bool.and_eq_true,
    decide_eq_true_eq, List.any_eq_true, Prod.mk.injEq]
  constructor
  · rintro ⟨sc', inside, js', ⟨member, ⟨state, status⟩, si, present, same⟩, rfl, rfl⟩
    exact ⟨inside, member, state, status, si, present, same⟩
  · rintro ⟨inside, member, state, status, si, present, same⟩
    exact ⟨sc, inside, js, ⟨member, ⟨state, status⟩, si, present, same⟩, rfl, rfl⟩

theorem keys_update {condition : Job → Bool} {change : Job → Job} (keys : db.Keys)
    (kept : ∀ job, (change job).jobid = job.jobid ∧ (change job).jparentJobid = job.jparentJobid) :
    (db.updateJobs condition change).Keys := by
  refine keys_map rfl (fun job => ?_) keys
  split
  · exact kept job
  · exact ⟨rfl, rfl⟩

theorem keys_perform {op : Operation} (keys : db.Keys) (step : db.perform op = some db') :
    db'.Keys := by
  have attempt {done : Sql Db} (keeps : ∀ u, done = .ok u → u.Keys) : (db.attempt done).Keys := by
    rcases attempt_cases db done with same | ⟨u, ok, same⟩
    · rwa [same]
    · rw [same]
      exact keeps u ok
  cases op with
  | runJobs env => exact Option.some.inj step ▸ attempt fun u done => (runJobs_ok done).1 keys
  | importFile file =>
      refine Option.some.inj step ▸ attempt fun u done => keys_same ?_ keys
      rw [importFile_ok done]
  | sendFile id fileName destination =>
      refine Option.some.inj step ▸ attempt fun u done => ?_
      unfold Db.sendFile at done
      split at done
      · obtain ⟨jobdata, -, rest⟩ := bind_ok.mp done
        obtain ⟨top, -, -, inserted⟩ := insertUnderRoot_ok rest
        exact keys_insertJob inserted keys
      · exact pure_ok.mp done ▸ keys
  | updateJobPriority id priority =>
      exact Option.some.inj step ▸ keys_update keys fun job => ⟨rfl, rfl⟩
  | storeData id fd data =>
      refine Option.some.inj step ▸ attempt fun u done => ?_
      obtain ⟨top, -, -, inserted⟩ := insertUnderRoot_ok done
      exact keys_insertJob inserted keys
  | retrieve sc job =>
      simp only [perform] at step
      split at step
      · exact Option.some.inj step ▸ keys_update keys fun job => ⟨rfl, rfl⟩
      · cases step
  | updateStatus id status => exact Option.some.inj step ▸ keys_update keys fun job => ⟨rfl, rfl⟩
  | updateConns ipaddress fd status => exact Option.some.inj step ▸ keys_same (rfl : _ = db.jobScheduler) keys
  | updateComms scommid => exact Option.some.inj step ▸ keys_same (rfl : _ = db.jobScheduler) keys
  | deleteComms scommid => exact Option.some.inj step ▸ keys_same (rfl : _ = db.jobScheduler) keys
  | getcomms rcomid =>
      obtain ⟨row, -, -, rfl⟩ := perform_getcomms step
      exact keys_same (rfl : _ = db.jobScheduler) keys
  | insertConns fd ipaddr status =>
      obtain ⟨rows, same⟩ := rInsertConns_frame db fd ipaddr status
      exact Option.some.inj step ▸ keys_same (by rw [same]) keys

/-- What an operation does to `job_scheduler`. One that raises leaves it as it is. -/
inductive Touches (db : Db) : Operation → Db → Prop
  | rests {op : Operation} {db' : Db} (jobs : db'.jobScheduler = db.jobScheduler)
      (own : db'.selfinfo = db.selfinfo) : Touches db op db'
  | passes {env : Env} {db' : Db} (done : FileSharing.runJobs env db = .ok db') :
      Touches db (.runJobs env) db'
  | sends {id : Uuid} {fileName destination : Text} {jobdata : Bytea} {top : Job} {db' : Db}
      (read : byteain fileName = .ok jobdata) (member : top ∈ db.jobScheduler)
      (self : top.jparentJobid = top.jobid)
      (inserted : db.insertJob ⟨id, jobdata, .S, RunJobs.typeField "6", top.jsource, top.jobid,
        lpad destination 5, ascii "5"⟩ = .ok db') :
      Touches db (.sendFile id fileName destination) db'
  | stores {id : Uuid} {fd : Int} {data : Bytea} {top : Job} {db' : Db}
      (member : top ∈ db.jobScheduler) (self : top.jparentJobid = top.jobid)
      (inserted : db.insertJob ⟨id, data, .N1, ascii "0", intText fd, top.jobid, ascii "0",
        ascii "5"⟩ = .ok db') :
      Touches db (.storeData id fd data) db'
  | prioritizes {id : Uuid} {priority : Text} :
      Touches db (.updateJobPriority id priority) (db.updateJobPriority id priority)
  | retrieves {sc : SendingConn} {job : Job} (listed : (sc, job) ∈ db.sGetInfo) :
      Touches db (.retrieve sc job) (db.appendW job.jobid)
  | reports {id : Uuid} {status : Int} :
      Touches db (.updateStatus id status) (db.updateStatus id status)

theorem touches_of_perform {op : Operation} (step : db.perform op = some db') :
    Touches db op db' := by
  have attempt {done : Sql Db} (same : db.attempt done = db')
      (each : done = .ok db' → Touches db op db') : Touches db op db' := by
    rcases attempt_cases db done with failed | ⟨u, ok, moved⟩
    · obtain rfl := failed.symm.trans same
      exact .rests rfl rfl
    · exact each (same ▸ moved ▸ ok)
  cases op with
  | runJobs env => exact attempt (Option.some.inj step) fun done => .passes done
  | importFile file =>
      refine attempt (Option.some.inj step) fun done => ?_
      obtain rfl := importFile_ok done
      exact .rests rfl rfl
  | sendFile id fileName destination =>
      refine attempt (Option.some.inj step) fun done => ?_
      unfold Db.sendFile at done
      split at done
      · obtain ⟨jobdata, read, rest⟩ := bind_ok.mp done
        obtain ⟨top, member, self, inserted⟩ := insertUnderRoot_ok rest
        exact .sends read member self inserted
      · obtain rfl := pure_ok.mp done
        exact .rests rfl rfl
  | updateJobPriority id priority => exact Option.some.inj step ▸ .prioritizes
  | storeData id fd data =>
      refine attempt (Option.some.inj step) fun done => ?_
      obtain ⟨top, member, self, inserted⟩ := insertUnderRoot_ok done
      exact .stores member self inserted
  | retrieve sc job =>
      obtain ⟨listed, last⟩ : (sc, job) ∈ db.sGetInfo ∧ some (db.appendW job.jobid) = some db' := by
        simpa [perform] using step
      exact Option.some.inj last ▸ .retrieves listed
  | updateStatus id status => exact Option.some.inj step ▸ .reports
  | updateConns ipaddress fd status => exact Option.some.inj step ▸ .rests rfl rfl
  | updateComms scommid => exact Option.some.inj step ▸ .rests rfl rfl
  | deleteComms scommid => exact Option.some.inj step ▸ .rests rfl rfl
  | getcomms rcomid =>
      obtain ⟨row, -, -, rfl⟩ := perform_getcomms step
      exact .rests rfl rfl
  | insertConns fd ipaddr status =>
      obtain ⟨rows, same⟩ := rInsertConns_frame db fd ipaddr status
      refine Option.some.inj step ▸ .rests ?_ ?_
      · rw [same]
      · rw [same]

end Db

end FileSharing
