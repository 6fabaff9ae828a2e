import FileSharing.Database.Repetition

/-! The messages of a job are made in one pass: after it, no operation of any program adds
a message to the job, takes one away or changes its bytes. -/

namespace FileSharing

open Library RunJobs Completion

namespace Once

def messagesOf (db : Db) (parent : Uuid) : List (Uuid × Bytea) :=
  (childrenOf db.jobScheduler parent).map fun job => (job.jobid, job.jobdata)

structure Sealed (root parent : Uuid) (messages : List (Uuid × Bytea)) (db : Db) : Prop where
  tree : Tree root db
  some : messages ≠ []
  same : messagesOf db parent = messages

section Steps

variable {env : Env} {root parent : Uuid} {messages : List (Uuid × Bytea)} {db db' : Db}

theorem messagesOf_rows {change : Job → Job} {fresh : List Job}
    (rows : db'.jobScheduler = db.jobScheduler.map change ++ fresh)
    (kept : ∀ job, (change job).jobid = job.jobid ∧ (change job).jobdata = job.jobdata ∧
      (change job).jparentJobid = job.jparentJobid)
    (apart : ∀ job ∈ fresh, job.jparentJobid ≠ parent) :
    messagesOf db' parent = messagesOf db parent := by
  have same : childrenOf db'.jobScheduler parent = (childrenOf db.jobScheduler parent).map change := by
    rw [rows, childrenOf_append, childrenOf_none apart, List.append_nil,
      childrenOf_map fun job => (kept job).2.2]
  unfold messagesOf
  rw [same, List.map_map]
  refine List.map_congr_left fun job _ => ?_
  simp only [Function.comp, (kept job).1, (kept job).2.1]

theorem messagesOf_evolves {w : Scope} {made : Job → Prop} (evolves : Evolves w made db db')
    (apart : ∀ job, made job → job.jparentJobid ≠ parent) :
    messagesOf db' parent = messagesOf db parent := by
  obtain ⟨-, change, fresh, kept, rows, built⟩ := evolves
  exact messagesOf_rows rows
    (fun job => ⟨(kept job).jobid, (kept job).jobdata, (kept job).jparentJobid⟩)
    fun job member => apart job (built job member)

theorem Sealed.update {condition : Job → Bool} {change : Job → Job}
    (sealing : Sealed root parent messages db) (tree : Tree root (db.updateJobs condition change))
    (kept : ∀ job, (change job).jobid = job.jobid ∧ (change job).jobdata = job.jobdata ∧
      (change job).jparentJobid = job.jparentJobid) :
    Sealed root parent messages (db.updateJobs condition change) := by
  refine ⟨tree, sealing.some, (messagesOf_rows (List.append_nil _).symm ?_ (by simp)).trans sealing.same⟩
  intro job
  split
  · exact kept job
  · exact ⟨rfl, rfl, rfl⟩

theorem Sealed.child (sealing : Sealed root parent messages db) :
    ∃ child ∈ db.jobScheduler, child.jparentJobid = parent := by
  obtain ⟨message, inside⟩ := List.exists_mem_of_ne_nil _ (sealing.same ▸ sealing.some)
  obtain ⟨child, member, -⟩ := List.mem_map.mp inside
  exact ⟨child, mem_childrenOf.mp member⟩

theorem splitJobs_apart (sealing : Sealed root parent messages db) (other : parent ≠ root)
    (done : splitJobs env db = .ok db') : messagesOf db' parent = messagesOf db parent := by
  obtain ⟨fate, singles, chunks, infos, rows, -⟩ :=
    splitJobs_rows sealing.tree.keys sealing.tree.settled done
  obtain ⟨child, member, under⟩ := sealing.child
  have late := (sealing.tree.below child member (under ▸ other)).2
  refine messagesOf_rows rows.rows
    (fun job => ⟨(rows.kept job).jobid, (rows.kept job).jobdata, (rows.kept job).jparentJobid⟩) ?_
  intro job new same
  obtain ⟨-, q, inside, start, -, above⟩ := rows.maker new
  have early : Early q.jstate := by
    rw [start]
    decide
  refine late q inside ?_ early
  exact above.symm.trans (same.trans under.symm)

theorem sealed_runJobs (sealing : Sealed root parent messages db) (other : parent ≠ root)
    (done : runJobs env db = .ok db') : Sealed root parent messages db' := by
  obtain ⟨u, t, b, x, y, stages⟩ := Repetition.stages_of done
  have received : Evolves quiet (fun _ => False) db (receive db) := (receive_ok db).1
  have completed := Repetition.completed_evolves stages.completed
  have single : Evolves quiet (fun _ => False) u (completeSingle u) := evolves_completeSingle u
  obtain ⟨requested, tree⟩ :=
    stages.untilSplit (Repetition.tree_completed sealing.tree stages.completed).2
  have before : messagesOf x parent = messagesOf db parent := by
    calc
      messagesOf x parent = messagesOf (completeSingle u) parent :=
        messagesOf_evolves requested fun job row => row.parent ▸ other.symm
      _ = messagesOf u parent := messagesOf_evolves single nofun
      _ = messagesOf (receive db) parent := messagesOf_evolves completed nofun
      _ = messagesOf db parent := messagesOf_evolves received nofun
  have start : Sealed root parent messages x := ⟨tree, sealing.some, before.trans sealing.same⟩
  have rows := (manageConns_frame stages.managed).jobScheduler
  refine ⟨sealing.tree.runJobs done, sealing.some, ?_⟩
  calc
    messagesOf db' parent = messagesOf y parent := by simp only [messagesOf, rows]
    _ = messagesOf x parent := splitJobs_apart start other stages.split
    _ = messages := start.same

theorem messagesOf_insertJob {job : Job} (inserted : db.insertJob job = .ok db')
    (apart : job.jparentJobid ≠ parent) : messagesOf db' parent = messagesOf db parent := by
  have rows : db'.jobScheduler = db.jobScheduler.map id ++ [job] := by
    rw [(insertJob_ok inserted).1, List.map_id]
  refine messagesOf_rows rows (fun _ => ⟨rfl, rfl, rfl⟩) fun new single => ?_
  rwa [List.mem_singleton.mp single]

theorem sealed_perform {op : Operation} (sealing : Sealed root parent messages db)
    (other : parent ≠ root) (step : db.perform op = some db') :
    Sealed root parent messages db' := by
  have tree := sealing.tree.perform step
  have apart {top : Job} (member : top ∈ db.jobScheduler) (self : top.jparentJobid = top.jobid) :
      top.jobid ≠ parent := by
    rw [sealing.tree.self top member self]
    exact other.symm
  cases Db.touches_of_perform step with
  | rests jobs own =>
      refine ⟨tree, sealing.some, ?_⟩
      rw [← sealing.same]
      simp only [messagesOf, jobs]
  | passes done => exact sealed_runJobs sealing other done
  | sends read member self inserted =>
      exact ⟨tree, sealing.some, (messagesOf_insertJob inserted (apart member self)).trans sealing.same⟩
  | stores member self inserted =>
      exact ⟨tree, sealing.some, (messagesOf_insertJob inserted (apart member self)).trans sealing.same⟩
  | prioritizes => exact sealing.update tree fun _ => ⟨rfl, rfl, rfl⟩
  | retrieves listed => exact sealing.update tree fun _ => ⟨rfl, rfl, rfl⟩
  | reports => exact sealing.update tree fun _ => ⟨rfl, rfl, rfl⟩

end Steps

/-- Once a job has messages, no run of the programs adds one to it, takes one away or changes
one: all of them were made in one pass. -/
theorem messages_made_once {root : Uuid} {own : SelfInfo} {known : List SysInfo}
    {ops more : List Operation} {db t : Db} {child : Job}
    (reached : run Db.perform (startDb root own known) ops = some db)
    (member : child ∈ db.jobScheduler) (other : child.jparentJobid ≠ root)
    (done : run Db.perform db more = some t) :
    messagesOf t child.jparentJobid = messagesOf db child.jparentJobid := by
  have some : messagesOf db child.jparentJobid ≠ [] := by
    refine List.ne_nil_of_mem (List.mem_map_of_mem (mem_childrenOf.mpr ⟨member, rfl⟩))
  have start : Sealed root child.jparentJobid (messagesOf db child.jparentJobid) db :=
    ⟨Tree.reachable reached, some, rfl⟩
  exact (run_keeps (fun _ _ _ sealing moved => sealed_perform sealing other moved) start done).same

section Samples

def cutting : List Operation :=
  [.importFile ⟨ascii "f", List.replicate 10 7⟩, .sendFile (Uuid.ofNat 1) (ascii "f") (ascii "M1"),
    .runJobs sampleEnv]

theorem pieces_made_once : ∃ db t, run Db.perform (sampleStart [m1At 16843009]) cutting = some db ∧
    run Db.perform db [.updateConns 16843009 5 2, .runJobs sampleEnv, .runJobs sampleEnv] = some t ∧
    messagesOf t (Uuid.ofNat 1) = messagesOf db (Uuid.ofNat 1) ∧
    (messagesOf db (Uuid.ofNat 1)).length = 3 := by
  obtain ⟨db, reached, known⟩ := Option.map_eq_some_iff.mp
    (by decide +kernel : (run Db.perform (sampleStart [m1At 16843009]) cutting).map (fun db =>
      ((messagesOf db (Uuid.ofNat 1)).length, (run Db.perform db
        [.updateConns 16843009 5 2, .runJobs sampleEnv, .runJobs sampleEnv]).isSome)) = some (3, true))
  obtain ⟨count, goes⟩ := Prod.mk.inj known
  obtain ⟨t, done⟩ := Option.isSome_iff_exists.mp goes
  have some : messagesOf db (Uuid.ofNat 1) ≠ [] := by
    intro none
    rw [none] at count
    cases count
  obtain ⟨message, inside⟩ := List.exists_mem_of_ne_nil _ some
  obtain ⟨child, member, -⟩ := List.mem_map.mp inside
  obtain ⟨present, above⟩ := mem_childrenOf.mp member
  have other : Uuid.ofNat 1 ≠ Uuid.ofNat 0 := by decide
  have same := messages_made_once reached present (above ▸ other) done
  exact ⟨db, t, reached, done, above ▸ same, count⟩

end Samples

end Once

end FileSharing
