import FileSharing.Database.Completion

/-! What every reachable table of jobs looks like, whatever the messages were: the jobs form
a tree of two levels under the root, and no job stays in the middle of a pass. -/

namespace FileSharing

open Library RunJobs Completion

/-- The jobs under a job other than the root are final for `run_jobs`, and their parent has
left the first states. -/
structure Tree (root : Uuid) (db : Db) : Prop where
  keys : db.Keys
  rooted : root ∈ db.jobids
  self : ∀ job ∈ db.jobScheduler, job.jparentJobid = job.jobid → job.jobid = root
  top : ∀ job ∈ db.jobScheduler, job.jobid = root → Fixed job.jstate
  below : ∀ job ∈ db.jobScheduler, job.jparentJobid ≠ root → Fixed job.jstate ∧
    ∀ parent ∈ db.jobScheduler, parent.jobid = job.jparentJobid → ¬ Early parent.jstate
  settled : ∀ job ∈ db.jobScheduler, ¬ Transient job.jstate

namespace Tree

theorem early_not_fixed {s : JState} (early : Early s) : ¬ Fixed s := by
  intro fixed
  simp only [Early, List.mem_cons, List.not_mem_nil, or_false] at early
  rcases early with rfl | rfl | rfl | rfl | rfl | rfl
  · exact fixed quiet _ .accept
  · exact fixed quiet _ .arrive
  · exact fixed quiet _ .identify
  · exact fixed quiet _ .answer
  · exact fixed quiet _ .start
  · exact fixed ⟨true, true⟩ _ (.split rfl)

variable {root : Uuid} {db db' : Db}

theorem under_root (tree : Tree root db) {job : Job} (member : job ∈ db.jobScheduler)
    (early : Early job.jstate) : job.jparentJobid = root := by
  by_contra other
  exact early_not_fixed early (tree.below job member other).1

theorem map {change : Job → Job} (tree : Tree root db)
    (rows : db'.jobScheduler = db.jobScheduler.map change)
    (ids : ∀ job, (change job).jobid = job.jobid ∧ (change job).jparentJobid = job.jparentJobid)
    (calm : ∀ job ∈ db.jobScheduler, Calm job.jstate (change job).jstate) : Tree root db' := by
  have old {job : Job} (member : job ∈ db'.jobScheduler) :
      ∃ q ∈ db.jobScheduler, change q = job := List.mem_map.mp (rows ▸ member)
  constructor
  · exact keys_map rows ids tree.keys
  · have same : db'.jobids = db.jobids := by
      rw [Db.jobids, rows, List.map_map, Db.jobids]
      exact List.map_congr_left fun job _ => (ids job).1
    exact same ▸ tree.rooted
  · intro job member same
    obtain ⟨q, inside, rfl⟩ := old member
    rw [(ids q).1, (ids q).2] at same
    exact (ids q).1.trans (tree.self q inside same)
  · intro job member top
    obtain ⟨q, inside, rfl⟩ := old member
    exact (calm q inside).fixed (tree.top q inside ((ids q).1 ▸ top))
  · intro job member other
    obtain ⟨q, inside, rfl⟩ := old member
    obtain ⟨fixed, late⟩ := tree.below q inside ((ids q).2 ▸ other)
    refine ⟨(calm q inside).fixed fixed, fun parent present same early => ?_⟩
    obtain ⟨p, there, rfl⟩ := old present
    exact late p there ((ids p).1 ▸ (ids q).2 ▸ same) ((calm p there).early early)
  · intro job member transient
    obtain ⟨q, inside, rfl⟩ := old member
    exact tree.settled q inside ((calm q inside).transient transient)

theorem append {fresh : List Job} (tree : Tree root db) (keys : db'.Keys)
    (rows : db'.jobScheduler = db.jobScheduler ++ fresh)
    (each : ∀ job ∈ fresh, job.jparentJobid = root ∧ ¬ Transient job.jstate) : Tree root db' := by
  have ids : db'.jobids = db.jobids ++ fresh.map Job.jobid := by
    rw [Db.jobids, rows, List.map_append, Db.jobids]
  have apart {job : Job} (member : job ∈ fresh) : job.jobid ∉ db.jobids := by
    intro known
    have nodup := keys.jobids
    rw [ids] at nodup
    exact (List.nodup_append.mp nodup).2.2 _ known _ (List.mem_map_of_mem member) rfl
  have cases {job : Job} (member : job ∈ db'.jobScheduler) :
      job ∈ db.jobScheduler ∨ job ∈ fresh := List.mem_append.mp (rows ▸ member)
  constructor
  · exact keys
  · rw [ids]
    exact List.mem_append_left _ tree.rooted
  · intro job member same
    rcases cases member with old | new
    · exact tree.self job old same
    · exact same.symm.trans (each job new).1
  · intro job member top
    rcases cases member with old | new
    · exact tree.top job old top
    · exact absurd tree.rooted (top ▸ apart new)
  · intro job member other
    rcases cases member with old | new
    · obtain ⟨fixed, late⟩ := tree.below job old other
      refine ⟨fixed, fun parent present same => ?_⟩
      rcases cases present with known | new
      · exact late parent known same
      · exact absurd (tree.keys.parents job old) (same ▸ apart new)
    · exact absurd (each job new).1 other
  · intro job member
    rcases cases member with old | new
    · exact tree.settled job old
    · exact (each job new).2

theorem same (tree : Tree root db) (same : db'.jobScheduler = db.jobScheduler) : Tree root db' :=
  tree.map (same.trans (List.map_id _).symm) (fun _ => ⟨rfl, rfl⟩) fun job _ => .refl job.jstate

theorem evolves {w : Scope} {made : Job → Prop} (calm : w.splits = false) (tree : Tree root db)
    (evolves : Evolves w made db db')
    (each : ∀ job, made job → job.jparentJobid = root ∧ ¬ Transient job.jstate) :
    Tree root db' := by
  obtain ⟨keys, change, fresh, kept, rows, built⟩ := evolves
  let mid : Db := { db with jobScheduler := db.jobScheduler.map change }
  have first : Tree root mid := tree.map rfl
    (fun job => ⟨(kept job).jobid, (kept job).jparentJobid⟩)
    fun job _ => .promotes calm (kept job).jstate
  exact first.append (keys tree.keys) rows fun job member => each job (built job member)

theorem finish (digit : String) (tree : Tree root db) : Tree root (finishPending digit db) :=
  tree.evolves rfl (evolves_finishPending digit db : Evolves quiet (fun _ => False) _ _) nofun

theorem beforeSplit {env : Env} (tree : Tree root db)
    (done : Completion.beforeSplit env db = .ok db') : Tree root db' := by
  obtain ⟨a, promoted, rest⟩ := bind_ok.mp done
  obtain ⟨b, answered, replied⟩ := bind_ok.mp rest
  have first : Tree root a := by
    obtain ⟨evolves, -⟩ := promote_ok (w := ⟨true, false⟩) rfl promoted
    refine tree.evolves rfl evolves fun job row => ?_
    obtain ⟨i, si, -, js, member, state, made⟩ := row
    obtain ⟨-, state', -, parent, -⟩ := consensusJob_row made
    rw [state', parent]
    exact ⟨tree.under_root member (by rw [state]; decide), by decide⟩
  have second : Tree root b := by
    rcases answerRequests_ok answered with ⟨-, rfl⟩ | ⟨request, r, reply, u, v, one, -, written,
      made, inserted, rfl⟩
    · exact first.finish "4"
    · have pending : request ∈ pending "4" a := one ▸ List.mem_singleton.mpr rfl
      obtain ⟨member, test⟩ := List.mem_filter.mp pending
      simp only [Bool.and_eq_true, decide_eq_true_eq] at test
      have middle : Tree root u := first.same (upsertSysinfo_frame written).jobScheduler
      obtain ⟨-, state, -, parent, -⟩ := consensusJob_row made
      refine (middle.append (keys_insertJob inserted middle.keys) (insertJob_ok inserted).1
        fun job single => ?_).finish "4"
      rw [List.mem_singleton.mp single, state, parent]
      exact ⟨first.under_root member (by rw [test.1]; decide), by decide⟩
  obtain ⟨u, applied, rfl⟩ := takeReplies_ok replied
  exact (second.same (applyReplies_frame applied).jobScheduler).finish "5"

theorem splitJobs {env : Env} (tree : Tree root db)
    (done : RunJobs.splitJobs env db = .ok db') : Tree root db' := by
  obtain ⟨fate, singles, chunks, infos, rows, -⟩ := splitJobs_rows tree.keys tree.settled done
  have keys : db'.Keys := (splitJobs_ok (w := ⟨true, true⟩) rfl done).1.1 tree.keys
  have ids : db'.jobids = db.jobids ++ (singles ++ chunks ++ infos).map Job.jobid := by
    rw [Db.jobids, rows.rows, List.map_append, List.map_map, Db.jobids]
    congr 1
    exact List.map_congr_left fun job _ => (rows.kept job).jobid
  have apart {row : Job} (member : row ∈ singles ++ chunks ++ infos) : row.jobid ∉ db.jobids := by
    intro known
    have nodup := keys.jobids
    rw [ids] at nodup
    exact (List.nodup_append.mp nodup).2.2 _ known _ (List.mem_map_of_mem member) rfl
  have cases {job : Job} (member : job ∈ db'.jobScheduler) :
      (∃ q ∈ db.jobScheduler, fate q = job) ∨ job ∈ singles ++ chunks ++ infos := by
    rw [rows.rows] at member
    exact (List.mem_append.mp member).imp List.mem_map.mp id
  -- a job is early after the split only if it was before
  have early {q : Job} (inside : q ∈ db.jobScheduler) (later : Early (fate q).jstate) :
      fate q = q := by
    cases rows.fates q inside with
    | same stays => exact stays
    | split _ _ moved => exact absurd later (by rw [moved]; exact (by decide : ¬ Early .S2W))
    | single _ moved => exact absurd later (by rw [moved]; exact (by decide : ¬ Early .S3W))
  constructor
  · exact keys
  · rw [ids]
    exact List.mem_append_left _ tree.rooted
  · intro job member same
    rcases cases member with ⟨q, inside, rfl⟩ | new
    · rw [(rows.kept q).jobid, (rows.kept q).jparentJobid] at same
      exact (rows.kept q).jobid.trans (tree.self q inside same)
    · obtain ⟨-, q, present, -, -, parent⟩ := rows.maker new
      have known : q.jobid ∈ db.jobids := List.mem_map_of_mem present
      rw [← parent, same] at known
      exact absurd known (apart new)
  · intro job member top
    rcases cases member with ⟨q, inside, rfl⟩ | new
    · have fixed := tree.top q inside ((rows.kept q).jobid ▸ top)
      rwa [(rows.fates q inside).fixed fixed]
    · exact absurd tree.rooted (top ▸ apart new)
  · intro job member other
    rcases cases member with ⟨q, inside, rfl⟩ | new
    · obtain ⟨fixed, late⟩ := tree.below q inside ((rows.kept q).jparentJobid ▸ other)
      refine ⟨by rwa [(rows.fates q inside).fixed fixed], fun parent present same later => ?_⟩
      rcases cases present with ⟨p, there, rfl⟩ | new
      · rw [(rows.kept p).jobid, (rows.kept q).jparentJobid] at same
        exact late p there same (early there later ▸ later)
      · rw [(rows.kept q).jparentJobid] at same
        exact absurd (tree.keys.parents q inside) (same ▸ apart new)
    · obtain ⟨ready, q, inside, start, waits, parent⟩ := rows.maker new
      refine ⟨ready ▸ fixed_s4, fun p present same later => ?_⟩
      rw [parent] at same
      rcases cases present with ⟨p, there, rfl⟩ | new
      · obtain rfl : p = q := List.inj_on_of_nodup_map tree.keys.jobids there inside
          ((rows.kept p).jobid ▸ same)
        rw [early there later, start] at waits
        rcases waits with h | h <;> cases h
      · exact absurd (List.mem_map_of_mem inside : q.jobid ∈ db.jobids) (same ▸ apart new)
  · intro job member
    rcases cases member with ⟨q, inside, rfl⟩ | new
    · cases rows.fates q inside with
      | same stays =>
          rw [stays]
          exact tree.settled q inside
      | split _ _ moved =>
          rw [moved]
          exact (by decide : ¬ Transient .S2W)
      | single _ moved =>
          rw [moved]
          exact (by decide : ¬ Transient .S3W)
    · rw [(rows.maker new).1]
      decide

theorem runJobs {env : Env} (tree : Tree root db) (done : FileSharing.runJobs env db = .ok db') :
    Tree root db' := by
  rw [runJobs_split] at done
  obtain ⟨u, before, rest⟩ := bind_ok.mp done
  obtain ⟨v, split, managed⟩ := bind_ok.mp rest
  exact ((tree.beforeSplit before).splitJobs split).same (manageConns_frame managed).jobScheduler

theorem insertUnderRoot {make : Job → Job} (tree : Tree root db)
    (parent : ∀ top, (make top).jparentJobid = top.jobid)
    (other : ∀ top, ¬ Transient (make top).jstate)
    (done : db.insertUnderRoot make = .ok db') : Tree root db' := by
  obtain ⟨top, member, self, inserted⟩ := insertUnderRoot_ok done
  refine tree.append (keys_insertJob inserted tree.keys) (insertJob_ok inserted).1
    fun job single => ?_
  rw [List.mem_singleton.mp single, parent]
  exact ⟨tree.self top member self, other top⟩

theorem update {condition : Job → Bool} {change : Job → Job} (tree : Tree root db)
    (kept : ∀ job, (change job).jobid = job.jobid ∧ (change job).jparentJobid = job.jparentJobid)
    (calm : ∀ job ∈ db.jobScheduler, condition job = true →
      Calm job.jstate (change job).jstate) : Tree root (db.updateJobs condition change) := by
  refine tree.map rfl (fun job => ?_) fun job member => ?_
  · split
    · exact kept job
    · exact ⟨rfl, rfl⟩
  · split
    · next holds => exact calm job member holds
    · exact .refl job.jstate

theorem perform {op : Operation} (tree : Tree root db) (step : db.perform op = some db') :
    Tree root db' := by
  have attempt {done : Sql Db} (keeps : ∀ u, done = .ok u → Tree root u) :
      Tree root (db.attempt done) := by
    rcases Db.attempt_cases db done with same | ⟨u, ok, same⟩
    · rwa [same]
    · rw [same]
      exact keeps u ok
  cases op with
  | runJobs env =>
      obtain rfl := Option.some.inj step
      exact attempt fun u done => tree.runJobs done
  | importFile file =>
      obtain rfl := Option.some.inj step
      refine attempt fun u done => tree.same ?_
      rw [importFile_ok done]
  | sendFile id fileName destination =>
      obtain rfl := Option.some.inj step
      refine attempt fun u done => ?_
      unfold Db.sendFile at done
      split at done
      · obtain ⟨jobdata, -, rest⟩ := bind_ok.mp done
        exact tree.insertUnderRoot (fun _ => rfl) (fun _ => (by decide : ¬ Transient .S)) rest
      · exact pure_ok.mp done ▸ tree
  | updateJobPriority id priority =>
      obtain rfl := Option.some.inj step
      exact tree.update (fun _ => ⟨rfl, rfl⟩) fun job _ _ => .refl job.jstate
  | storeData id fd data =>
      obtain rfl := Option.some.inj step
      refine attempt fun u done => ?_
      exact tree.insertUnderRoot (fun _ => rfl) (fun _ => (by decide : ¬ Transient .N1)) done
  | retrieve sc job =>
      obtain ⟨listed, last⟩ : (sc, job) ∈ db.sGetInfo ∧ some (db.appendW job.jobid) = some db' := by
        simpa [Db.perform] using step
      obtain rfl := Option.some.inj last
      obtain ⟨-, member, state, -⟩ := Db.mem_sGetInfo.mp listed
      refine tree.update (fun _ => ⟨rfl, rfl⟩) fun other inside same => ?_
      obtain rfl : other = job := List.inj_on_of_nodup_map tree.keys.jobids inside member
        (by simpa using same)
      rw [state]
      exact .final (by decide : Settled .S4W) fixed_s4w
  | updateStatus id status =>
      obtain rfl := Option.some.inj step
      refine tree.update (fun _ => ⟨rfl, rfl⟩) fun job _ _ => ?_
      dsimp only
      split
      · exact .final (by decide) fixed_c
      · exact .final (by decide) fixed_d
  | updateConns ipaddress fd status =>
      obtain rfl := Option.some.inj step
      exact tree.same rfl
  | updateComms scommid =>
      obtain rfl := Option.some.inj step
      exact tree.same rfl
  | deleteComms scommid =>
      obtain rfl := Option.some.inj step
      exact tree.same rfl
  | getcomms rcomid =>
      obtain ⟨row, -, -, rfl⟩ := Db.perform_getcomms step
      exact tree.same rfl
  | insertConns fd ipaddr status =>
      obtain rfl := Option.some.inj step
      obtain ⟨rows, same⟩ := Db.rInsertConns_frame db fd ipaddr status
      exact tree.same (by rw [same])

theorem start (root : Uuid) (own : SelfInfo) (known : List SysInfo) :
    Tree root (startDb root own known) := by
  have only {job : Job} (member : job ∈ (startDb root own known).jobScheduler) :
      job.jobid = root ∧ job.jparentJobid = root ∧ job.jstate = .N0 := by
    rw [List.mem_singleton.mp member]
    exact ⟨rfl, rfl, rfl⟩
  constructor
  · exact ⟨List.nodup_singleton _, fun job member => (only member).2.1 ▸ List.mem_singleton.mpr rfl⟩
  · exact List.mem_singleton.mpr rfl
  · exact fun job member _ => (only member).1
  · intro job member _
    rw [(only member).2.2]
    exact fun _ _ step => nomatch step
  · exact fun job member other => absurd (only member).2.1 other
  · intro job member
    rw [(only member).2.2]
    decide

theorem reachable {own : SelfInfo} {known : List SysInfo} {ops : List Operation}
    (reached : run Db.perform (startDb root own known) ops = some db) : Tree root db :=
  run_keeps (fun _ _ _ tree step => perform tree step) (start root own known) reached

end Tree

end FileSharing
