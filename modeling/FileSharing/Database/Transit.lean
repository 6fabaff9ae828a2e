import FileSharing.Database.Made
import FileSharing.Database.Routing
import FileSharing.Database.Tree

/-! What becomes of a message that has arrived for another system: the statements that make
messages look for a file with its bytes as the name. -/

namespace FileSharing

open Library RunJobs Completion

namespace Transit

def Nameless (db : Db) (data : Bytea) : Prop := ∀ fd ∈ db.files, byteain fd.fileName ≠ .ok data

/-- The operations that do not meddle with a row: no status or priority is set for it, and no
file with its bytes as the name is imported. -/
def Apart (job : Job) (_ : Db) : Operation → Prop
  | .importFile file => byteain file.fileName ≠ .ok job.jobdata
  | .updateStatus id _ => id ≠ job.jobid
  | .updateJobPriority id _ => id ≠ job.jobid ∧ id ≠ job.jparentJobid
  | _ => True

structure Waits (root : Uuid) (job : Job) (db : Db) : Prop where
  tree : Tree root db
  member : job ∈ db.jobScheduler
  nameless : Nameless db job.jobdata

section Steps

variable {env : Env} {root : Uuid} {job : Job} {db db' u v : Db}

theorem nameless_of_files (nameless : Nameless db job.jobdata) (files : db'.files = db.files) :
    Nameless db' job.jobdata := by
  intro fd present
  rw [files] at present
  exact nameless fd present

theorem unmeasured {test : Int → Int → Bool} {holds : Bool} (nameless : Nameless db job.jobdata)
    (read : measured db test job = .ok holds) : holds = false := by
  cases holds with
  | false => rfl
  | true =>
      obtain ⟨fd, si, capacity, joins, -⟩ := Made.measured_true read
      exact absurd joins.name (nameless fd joins.file)

/-- A job without a file is neither split nor sent in one piece. -/
theorem splitJobs_spares (nameless : Nameless db job.jobdata) (member : job ∈ db.jobScheduler)
    (state : job.jstate = .S1) (done : splitJobs env db = .ok db') : job ∈ db'.jobScheduler := by
  unfold splitJobs at done
  obtain ⟨a, split, rest⟩ := bind_ok.mp done
  obtain ⟨b, single, rest⟩ := bind_ok.mp rest
  obtain ⟨c, singles, rest⟩ := bind_ok.mp rest
  obtain ⟨d, chunks, rest⟩ := bind_ok.mp rest
  obtain ⟨e, infos, last⟩ := bind_ok.mp rest
  obtain rfl := pure_ok.mp last
  have spared {x : Db} (same : Nameless x job.jobdata) (test : Int → Int → Bool)
      (total : ∃ holds, (if job.jstate = .S1 then measured x test job else return false) =
        .ok holds) :
      (if job.jstate = .S1 then measured x test job else return false) = .ok false := by
    obtain ⟨holds, read⟩ := total
    rw [if_pos state] at read ⊢
    rw [read, unmeasured same read]
  have first : job ∈ a.jobScheduler :=
    Routing.updateM_leaves member (spared nameless _ ((updateJobsM_ok split).2.1 job member)) split
  have still : Nameless a job.jobdata := nameless_of_files nameless (updateJobsM_ok split).1.files
  have second : job ∈ b.jobScheduler :=
    Routing.updateM_leaves first (spared still _ ((updateJobsM_ok single).2.1 job first)) single
  have third : job ∈ c.jobScheduler := by
    obtain ⟨rows, -, rest⟩ := bind_ok.mp singles
    obtain ⟨jobs, -, inserted⟩ := bind_ok.mp rest
    exact Routing.insert_leaves second inserted
  have fourth : job ∈ d.jobScheduler := by
    obtain ⟨rows, -, rest⟩ := bind_ok.mp chunks
    obtain ⟨parts, -, rest⟩ := bind_ok.mp rest
    obtain ⟨jobs, -, inserted⟩ := bind_ok.mp rest
    exact Routing.insert_leaves third inserted
  have fifth : job ∈ e.jobScheduler := by
    obtain ⟨rows, -, rest⟩ := bind_ok.mp infos
    obtain ⟨jobs, -, inserted⟩ := bind_ok.mp rest
    exact Routing.insert_leaves fourth inserted
  have sixth : job ∈ (awaitSplit e).jobScheduler := Routing.update_leaves fifth (by simp [state])
  exact Routing.update_leaves sixth (by simp [state])

theorem stuck_s1 (t : JState) : ¬ Promote ⟨true, false⟩ .S1 t := by
  intro step
  cases step with
  | split splits => cases splits
  | single splits => cases splits

theorem files_answerRequests (done : answerRequests env db = .ok db') : db'.files = db.files := by
  rcases answerRequests_ok done with ⟨-, rfl⟩ | ⟨request, r, reply, u, v, -, -, written, -,
    inserted, rfl⟩
  · rfl
  · calc
      v.files = u.files := (insertJob_ok inserted).2.1.files
      _ = db.files := (upsertSysinfo_frame written).files

theorem behind_spares {t b x y : Db} (stages : Repetition.Stages env db u t b x y db')
    (nameless : Nameless db job.jobdata) (state : job.jstate = .S1)
    (member : job ∈ (receive db).jobScheduler) :
    job ∈ db'.jobScheduler ∧ Nameless db' job.jobdata := by
  have stuck : ∀ t, ¬ Promote ⟨true, false⟩ job.jstate t := by
    rw [state]
    exact stuck_s1
  -- up to the requests for a consensus
  obtain ⟨-, received⟩ : Evolves ⟨true, false⟩ (fun _ => False) db (receive db) ∧ _ := receive_ok db
  obtain ⟨completed, onlyCompleted⟩ : Evolves ⟨true, false⟩ (fun _ => False) (receive db) u ∧ _ :=
    evolves_completeSplit rfl stages.completed
  have single : Evolves ⟨true, false⟩ (fun _ => False) u (completeSingle u) :=
    evolves_completeSingle u
  obtain ⟨requested, onlyRequested⟩ := requestConsensus_ok (w := ⟨true, false⟩) stages.requested
  have started : Evolves ⟨true, false⟩ (fun _ => False) t (startKnown t) := evolves_startKnown t
  have waits : job ∈ (startKnown t).jobScheduler :=
    started.mem_of_stuck (requested.mem_of_stuck (single.mem_of_stuck
      (completed.mem_of_stuck member stuck) stuck) stuck) stuck
  -- the answers
  have answered : Evolves ⟨true, false⟩ IsNewRow (startKnown t) b :=
    evolves_answerRequests stages.answered
  obtain ⟨c, applied, rfl⟩ := takeReplies_ok stages.replied
  have frame := applyReplies_frame applied
  have kept : Evolves ⟨true, false⟩ (fun _ => False) b c := .of_eq frame.jobScheduler
  have finished : Evolves ⟨true, false⟩ (fun _ => False) c (finishPending "5" c) :=
    evolves_finishPending "5" c
  have there : job ∈ (finishPending "5" c).jobScheduler :=
    finished.mem_of_stuck (kept.mem_of_stuck (answered.mem_of_stuck waits stuck) stuck) stuck
  have files : c.files = db.files := by
    calc
      c.files = b.files := frame.files
      _ = (startKnown t).files := files_answerRequests stages.answered
      _ = t.files := rfl
      _ = u.files := onlyRequested.files
      _ = (receive db).files := onlyCompleted.files
      _ = db.files := received.files
  -- the split
  have still : Nameless (finishPending "5" c) job.jobdata := nameless_of_files nameless files
  have managed := manageConns_frame stages.managed
  constructor
  · rw [managed.jobScheduler]
    exact splitJobs_spares still there state stages.split
  · have only := (splitJobs_ok (w := ⟨true, true⟩) rfl stages.split).2
    exact nameless_of_files still (managed.files.trans only.files)

theorem runJobs_spares (nameless : Nameless db job.jobdata) (state : job.jstate = .S1)
    (member : job ∈ db.jobScheduler) (done : runJobs env db = .ok db') :
    job ∈ db'.jobScheduler ∧ Nameless db' job.jobdata := by
  obtain ⟨u, t, b, x, y, stages⟩ := Repetition.stages_of done
  have received : Evolves ⟨true, false⟩ (fun _ => False) db (receive db) := (receive_ok db).1
  refine behind_spares stages nameless state (received.mem_of_stuck member ?_)
  rw [state]
  exact stuck_s1

theorem waits_same (waits : Waits root job db) (tree : Tree root db')
    (jobs : db'.jobScheduler = db.jobScheduler) (files : db'.files = db.files) :
    Waits root job db' :=
  ⟨tree, jobs ▸ waits.member, nameless_of_files waits.nameless files⟩

theorem waits_update {condition : Job → Bool} {change : Job → Job} (waits : Waits root job db)
    (tree : Tree root (db.updateJobs condition change)) (spared : condition job = false) :
    Waits root job (db.updateJobs condition change) :=
  ⟨tree, Routing.update_leaves waits.member spared, waits.nameless⟩

theorem waits_insertUnderRoot {make : Job → Job} (waits : Waits root job db) (tree : Tree root db')
    (done : db.insertUnderRoot make = .ok db') : Waits root job db' := by
  obtain ⟨top, -, -, inserted⟩ := insertUnderRoot_ok done
  obtain ⟨appended, only, -⟩ := insertJob_ok inserted
  refine ⟨tree, ?_, nameless_of_files waits.nameless only.files⟩
  rw [appended]
  exact List.mem_append_left _ waits.member

/-- Every operation that does not meddle with the row leaves it where it is. -/
theorem waits_perform {op : Operation} (state : job.jstate = .S1) (waits : Waits root job db)
    (apart : Apart job db op) (step : db.perform op = some db') : Waits root job db' := by
  have tree := waits.tree.perform step
  have attempt {done : Sql Db} (same : db.attempt done = db')
      (keeps : done = .ok db' → Waits root job db') : Waits root job db' := by
    rcases Db.attempt_cases db done with failed | ⟨u, ok, moved⟩
    · exact (failed.symm.trans same) ▸ waits
    · exact keeps (same ▸ moved ▸ ok)
  cases op with
  | runJobs env =>
      refine attempt (Option.some.inj step) fun done => ?_
      obtain ⟨member, nameless⟩ := runJobs_spares waits.nameless state waits.member done
      exact ⟨tree, member, nameless⟩
  | importFile file =>
      refine attempt (Option.some.inj step) fun done => ?_
      obtain rfl := importFile_ok done
      refine ⟨tree, waits.member, fun fd present => ?_⟩
      rcases List.mem_append.mp present with known | new
      · exact waits.nameless fd known
      · rw [List.mem_singleton.mp new]
        exact apart
  | sendFile id fileName destination =>
      refine attempt (Option.some.inj step) fun done => ?_
      unfold Db.sendFile at done
      split at done
      · obtain ⟨jobdata, -, rest⟩ := bind_ok.mp done
        exact waits_insertUnderRoot waits tree rest
      · exact pure_ok.mp done ▸ waits
  | updateJobPriority id priority =>
      obtain rfl := Option.some.inj step
      exact waits_update waits tree (by simp [apart.1.symm, apart.2.symm])
  | storeData id fd data =>
      exact attempt (Option.some.inj step) fun done => waits_insertUnderRoot waits tree done
  | retrieve sc js =>
      obtain ⟨listed, last⟩ : (sc, js) ∈ db.sGetInfo ∧ some (db.appendW js.jobid) = some db' := by
        simpa [Db.perform] using step
      obtain rfl := Option.some.inj last
      obtain ⟨-, member, ready, -⟩ := Db.mem_sGetInfo.mp listed
      refine waits_update waits tree (decide_eq_false fun same => ?_)
      obtain rfl := List.inj_on_of_nodup_map waits.tree.keys.jobids waits.member member same
      cases state.symm.trans ready
  | updateStatus id status =>
      obtain rfl := Option.some.inj step
      exact waits_update waits tree (decide_eq_false apart.symm)
  | updateConns ipaddress fd status =>
      obtain rfl := Option.some.inj step
      exact waits_same waits tree rfl rfl
  | updateComms scommid =>
      obtain rfl := Option.some.inj step
      exact waits_same waits tree rfl rfl
  | deleteComms scommid =>
      obtain rfl := Option.some.inj step
      exact waits_same waits tree rfl rfl
  | getcomms rcomid =>
      obtain ⟨row, -, -, rfl⟩ := Db.perform_getcomms step
      exact waits_same waits tree rfl rfl
  | insertConns fd ipaddr status =>
      obtain ⟨rows, same⟩ := Db.rInsertConns_frame db fd ipaddr status
      obtain rfl := Option.some.inj step
      rw [same] at tree ⊢
      exact waits_same waits tree rfl rfl

end Steps

def forwarded (old : Job) : Job :=
  { old with jstate := .S1, jdestination := messageDestination old.jobdata }

/-- A message for another system is never passed on: after the pass that routes it, it stays in
S-1 in every run, and no message is made for it. -/
theorem never_passed_on {root : Uuid} {own : SelfInfo} {known : List SysInfo}
    {ops more : List Operation} {db db' t : Db} {env : Env} {old : Job}
    (reached : run Db.perform (startDb root own known) ops = some db)
    (member : old ∈ db.jobScheduler) (arrived : old.jstate = .N1)
    (accepted : Routing.Accepted old.jobdata)
    (other : messageDestination old.jobdata ∉ rootDestinations db)
    (nameless : Nameless db old.jobdata) (pass : runJobs env db = .ok db')
    (apart : Guarded Db.perform (Apart old) db' more) (done : run Db.perform db' more = some t) :
    forwarded old ∈ t.jobScheduler ∧ ∀ child ∈ t.jobScheduler, child.jparentJobid ≠ old.jobid := by
  have tree : Tree root db := Tree.reachable reached
  obtain ⟨u, s, b, x, y, stages⟩ := Repetition.stages_of pass
  have routed : forwarded old ∈ (receive db).jobScheduler :=
    Routing.receive_other member arrived ((Routing.hashMatches_iff _).mpr accepted) other
  obtain ⟨there, still⟩ : forwarded old ∈ db'.jobScheduler ∧ Nameless db' old.jobdata :=
    behind_spares stages nameless rfl routed
  have start : Waits root (forwarded old) db' := ⟨tree.runJobs pass, there, still⟩
  have waits : Waits root (forwarded old) t :=
    guarded_run_keeps (fun _ _ _ kept allowed moved => waits_perform rfl kept allowed moved) start
      apart done
  have early : Early (JState.S1) := by decide
  refine ⟨waits.member, fun child inside same => ?_⟩
  have top : child.jparentJobid ≠ root := by
    intro above
    exact Tree.early_not_fixed early (waits.tree.top _ waits.member (same.symm.trans above))
  exact (waits.tree.below child inside top).2 _ waits.member same.symm early

section Samples

def strayMessage : Bytea :=
  (createMessage sampleEnv.now (Uuid.ofNat 9).text (ascii "1") [] [7] (ascii "M1") (ascii "M2")
    (ascii "5") none).toOption.getD []

def strayJob : Job :=
  ⟨Uuid.ofNat 5, strayMessage, .N1, ascii "0", intText 7, Uuid.ofNat 0, ascii "0", ascii "5"⟩

theorem stray_never_passed_on :
    ∃ db db' t, run Db.perform (sampleStart []) [.storeData (Uuid.ofNat 5) 7 strayMessage] = some db ∧
      runJobs sampleEnv db = .ok db' ∧
      run Db.perform db' [.importFile ⟨ascii "f", [7]⟩, .runJobs sampleEnv] = some t ∧
      forwarded strayJob ∈ t.jobScheduler ∧
      ∀ child ∈ t.jobScheduler, child.jparentJobid ≠ strayJob.jobid := by
  obtain ⟨db, reached, known⟩ := Option.map_eq_some_iff.mp
    (by decide +kernel : (run Db.perform (sampleStart [])
      [.storeData (Uuid.ofNat 5) 7 strayMessage]).map (fun db =>
        (decide (strayJob ∈ db.jobScheduler), rootDestinations db, db.files,
          (runJobs sampleEnv db).toOption.map fun db' =>
            (run Db.perform db' [.importFile ⟨ascii "f", [7]⟩, .runJobs sampleEnv]).isSome)) =
      some (true, [ascii "   M3"], [], some true))
  simp only [Prod.mk.injEq, decide_eq_true_eq] at known
  obtain ⟨member, roots, files, ends⟩ := known
  obtain ⟨db', pass, goes⟩ := Option.map_eq_some_iff.mp ends
  obtain ⟨t, done⟩ := Option.isSome_iff_exists.mp goes
  have other : messageDestination strayJob.jobdata ∉ rootDestinations db := by
    rw [roots]
    decide +kernel
  have nameless : Nameless db strayJob.jobdata := by
    intro fd present
    rw [files] at present
    cases present
  have cast : byteain (ascii "f") ≠ .ok strayMessage := by decide +kernel
  have apart : Guarded Db.perform (Apart strayJob) db' [.importFile ⟨ascii "f", [7]⟩,
      .runJobs sampleEnv] := ⟨cast, fun _ _ => ⟨trivial, fun _ _ => trivial⟩⟩
  exact ⟨db, db', t, reached, toOption_some pass, done,
    never_passed_on reached member rfl (by unfold Routing.Accepted; decide +kernel) other nameless
      (toOption_some pass) apart done⟩

end Samples

end Transit

end FileSharing
