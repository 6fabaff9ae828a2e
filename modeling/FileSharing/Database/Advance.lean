import FileSharing.Database.Evolution

/-! The SQL statements of `run_jobs` one by one: each moves a job along one promotion at
most. -/

namespace FileSharing

open Library

namespace RunJobs

def acceptHash (db : Db) : Db :=
  db.updateJobs (fun job => job.jstate = .N1 && hashMatches job.jobdata)
    fun job => { job with jstate := .N2 }

def rejectHash (db : Db) : Db :=
  db.updateJobs (fun job => job.jstate = .N1 && !hashMatches job.jobdata)
    fun job => { job with jstate := .D }

def arrive (db : Db) : Db :=
  db.updateJobs (fun job => job.jstate = .N2 && messageDestination job.jobdata ∈ rootDestinations db)
    fun job => { job with jstate := .N3 }

def forward (db : Db) : Db :=
  db.updateJobs (fun job => job.jstate = .N2 && messageDestination job.jobdata ∉ rootDestinations db)
    fun job => { job with jstate := .S1, jdestination := messageDestination job.jobdata }

def awaitSplit (db : Db) : Db :=
  db.updateJobs (fun job => job.jstate = .S2 && knownName db job.jdestination)
    fun job => { job with jstate := .S2W }

def awaitSingle (db : Db) : Db :=
  db.updateJobs (fun job => job.jstate = .S3 && knownName db job.jdestination)
    fun job => { job with jstate := .S3W }

def statements : List (Env → Db → Sql Db) :=
  [fun _ db => pure (acceptHash db),
   fun _ db => pure (rejectHash db),
   fun _ db => pure (arrive db),
   fun _ db => pure (forward db),
   fun _ db => pure (identifyType db),
   fun _ db => completeSplit db,
   fun _ db => pure (completeSingle db),
   fun env db => requestConsensus env db,
   fun _ db => pure (startKnown db),
   fun _ db => learnRequests db,
   fun env db => queueReplies env db,
   fun _ db => pure (finishPending "4" db),
   fun _ db => applyReplies db,
   fun _ db => pure (finishPending "5" db),
   fun _ db => startSplit db,
   fun _ db => startSingle db,
   fun env db => singleJob env db,
   fun env db => chunkJobs env db,
   fun env db => infoJobs env db,
   fun _ db => pure (awaitSplit db),
   fun _ db => pure (awaitSingle db),
   fun _ db => pure (registerConns db),
   fun _ db => openConns db,
   fun _ db => closeConns db]

theorem statements_run (env : Env) (db : Db) :
    statements.foldlM (fun db statement => statement env db) db = runJobs env db := by
  have check (db : Db) : checkHash db = rejectHash (acceptHash db) := rfl
  have routed (db : Db) : route db = forward (arrive db) := rfl
  have awaits (db : Db) : awaitChildren db = awaitSingle (awaitSplit db) := rfl
  simp only [statements, runJobs, promote, answerRequests, takeReplies, splitJobs, manageConns,
    check, routed, awaits, List.foldlM_cons, List.foldlM_nil, bind_assoc, pure_bind, bind_pure]

end RunJobs

def every : Scope := ⟨true, true⟩

structure Moved (old new : Job) : Prop where
  jobid : new.jobid = old.jobid
  jparentJobid : new.jparentJobid = old.jparentJobid
  jstate : Relation.ReflGen (Promote every) old.jstate new.jstate

def Advances (db db' : Db) : Prop :=
  (db.Keys → db'.Keys) ∧ ∃ (change : Job → Job) (fresh : List Job),
    (∀ job, Moved job (change job)) ∧ db'.jobScheduler = db.jobScheduler.map change ++ fresh

section Advances

open RunJobs

variable {env : Env} {db db' : Db}

theorem Moved.refl (job : Job) : Moved job job := ⟨rfl, rfl, .refl⟩

theorem Moved.promote {job : Job} {s t : JState} (state : job.jstate = s)
    (step : Promote every s t) : Moved job { job with jstate := t } :=
  ⟨rfl, rfl, .single (state ▸ step)⟩

theorem Advances.same (same : db'.jobScheduler = db.jobScheduler) : Advances db db' :=
  ⟨keys_same same, id, [], Moved.refl, by rw [same, List.map_id, List.append_nil]⟩

theorem Advances.insert {rows : List Job} (done : db.insertJobs rows = .ok db') : Advances db db' :=
  ⟨keys_insertJobs done, id, rows, Moved.refl, by rw [(insertJobs_ok done).1, List.map_id]⟩

theorem Advances.map {change : Job → Job} (each : ∀ job, Moved job (change job))
    (rows : db'.jobScheduler = db.jobScheduler.map change) : Advances db db' :=
  ⟨keys_map rows fun job => ⟨(each job).jobid, (each job).jparentJobid⟩, change, [], each,
    rows.trans (List.append_nil _).symm⟩

theorem Advances.update (db : Db) {condition : Job → Bool} {change : Job → Job}
    (moves : ∀ job, condition job = true → Moved job (change job)) :
    Advances db (db.updateJobs condition change) := by
  have each (job : Job) : Moved job (if condition job then change job else job) := by
    split
    · next holds => exact moves job holds
    · exact Moved.refl job
  exact Advances.map each rfl

theorem Advances.updateM {condition : Job → Sql Bool} {change : Job → Job}
    (moves : ∀ job, condition job = .ok true → Moved job (change job))
    (done : db.updateJobsM condition change = .ok db') : Advances db db' := by
  have each (job : Job) : Moved job (if condition job = .ok true then change job else job) := by
    split
    · next holds => exact moves job holds
    · exact Moved.refl job
  exact Advances.map each (updateJobsM_ok done).2.2

theorem Advances.state (db : Db) {s t : JState} (step : Promote every s t) (test : Job → Bool) :
    Advances db (db.updateJobs (fun job => job.jstate = s && test job)
      fun job => { job with jstate := t }) := by
  apply Advances.update
  intro job holds
  simp only [Bool.and_eq_true, decide_eq_true_eq] at holds
  exact .promote holds.1 step

theorem advances_forward (db : Db) : Advances db (forward db) := by
  apply Advances.update
  intro job holds
  simp only [Bool.and_eq_true, decide_eq_true_eq] at holds
  exact ⟨rfl, rfl, .single (holds.1 ▸ .forward)⟩

theorem advances_identifyType (db : Db) : Advances db (identifyType db) := by
  apply Advances.update
  intro job holds
  have state : job.jstate = .N3 := by simpa using holds
  exact ⟨rfl, rfl, .single (state ▸ .identify)⟩

theorem advances_startKnown (db : Db) : Advances db (startKnown db) := by
  apply Advances.update
  intro job holds
  simp only [Bool.and_eq_true, decide_eq_true_eq] at holds
  exact .promote holds.2 .start

theorem advances_completeSplit (done : completeSplit db = .ok db') : Advances db db' := by
  rcases completeSplit_ok done with ⟨-, rfl⟩ | ⟨parents, -, rfl⟩
  · exact .same rfl
  · exact .state db (.completeSplit rfl) fun job => job.jobid ∈ parents

theorem advances_requestConsensus (done : requestConsensus env db = .ok db') : Advances db db' := by
  obtain ⟨rows, -, inserted⟩ := bind_ok.mp done
  exact .insert inserted

theorem advances_queueReplies (done : queueReplies env db = .ok db') : Advances db db' := by
  obtain ⟨received, -, rest⟩ := bind_ok.mp done
  obtain ⟨rows, -, inserted⟩ := bind_ok.mp rest
  exact .insert inserted

theorem advances_measured {test : Int → Int → Bool} {t : JState} (step : Promote every .S1 t)
    (done : db.updateJobsM (fun job => if job.jstate = .S1 then measured db test job
      else return false) (fun job => { job with jstate := t }) = .ok db') : Advances db db' := by
  apply Advances.updateM _ done
  intro job holds
  split at holds
  · next state => exact .promote state step
  · cases pure_ok.mp holds

theorem advances_singleJob (done : singleJob env db = .ok db') : Advances db db' := by
  obtain ⟨rows, -, rest⟩ := bind_ok.mp done
  obtain ⟨jobs, -, inserted⟩ := bind_ok.mp rest
  exact .insert inserted

theorem advances_chunkJobs (done : chunkJobs env db = .ok db') : Advances db db' := by
  obtain ⟨rows, -, rest⟩ := bind_ok.mp done
  obtain ⟨chunks, -, rest⟩ := bind_ok.mp rest
  obtain ⟨jobs, -, inserted⟩ := bind_ok.mp rest
  exact .insert inserted

theorem advances_infoJobs (done : infoJobs env db = .ok db') : Advances db db' := by
  obtain ⟨rows, -, rest⟩ := bind_ok.mp done
  obtain ⟨jobs, -, inserted⟩ := bind_ok.mp rest
  exact .insert inserted

theorem statements_advance {statement : Env → Db → Sql Db} (member : statement ∈ statements)
    (done : statement env db = .ok db') : Advances db db' := by
  simp only [statements, List.mem_cons, List.not_mem_nil, or_false] at member
  rcases member with rfl | rfl | rfl | rfl | rfl | rfl | rfl | rfl | rfl | rfl | rfl | rfl | rfl |
    rfl | rfl | rfl | rfl | rfl | rfl | rfl | rfl | rfl | rfl | rfl
  · exact pure_ok.mp done ▸ .state db .accept _
  · exact pure_ok.mp done ▸ .state db .reject _
  · exact pure_ok.mp done ▸ .state db .arrive _
  · exact pure_ok.mp done ▸ advances_forward db
  · exact pure_ok.mp done ▸ advances_identifyType db
  · exact advances_completeSplit done
  · exact pure_ok.mp done ▸ .state db .completeSingle _
  · exact advances_requestConsensus done
  · exact pure_ok.mp done ▸ advances_startKnown db
  · exact .same (learnRequests_frame done).jobScheduler
  · exact advances_queueReplies done
  · exact pure_ok.mp done ▸ .state db .answer _
  · exact .same (applyReplies_frame done).jobScheduler
  · exact pure_ok.mp done ▸ .state db .answer _
  · exact advances_measured (.split rfl) done
  · exact advances_measured (.single rfl) done
  · exact advances_singleJob done
  · exact advances_chunkJobs done
  · exact advances_infoJobs done
  · exact pure_ok.mp done ▸ .state db (.awaitSplit rfl) _
  · exact pure_ok.mp done ▸ .state db (.awaitSingle rfl) _
  · exact pure_ok.mp done ▸ .same (onlyConns_registerConns db).jobScheduler
  · exact .same (onlyConns_insertComms done).1.jobScheduler
  · exact .same (onlyConns_insertComms done).1.jobScheduler

end Advances

end FileSharing
