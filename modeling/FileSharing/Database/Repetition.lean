import FileSharing.Database.Idle
import FileSharing.Database.Lengths

/-! Two passes bring every reachable state to one that further passes leave as it is. -/

namespace FileSharing

open Library RunJobs Completion

namespace Repetition

structure Stages (env : Env) (db u t b x y v : Db) : Prop where
  completed : completeSplit (receive db) = .ok u
  requested : requestConsensus env (completeSingle u) = .ok t
  answered : answerRequests env (startKnown t) = .ok b
  replied : takeReplies b = .ok x
  split : splitJobs env x = .ok y
  managed : manageConns y = .ok v

structure UnderRoot (root : Uuid) (job : Job) : Prop where
  parent : job.jparentJobid = root
  state : job.jstate = .S5

section Rows

variable {w : Scope} {made : Job → Prop} {env : Env} {root : Uuid} {db db' u t b x y v : Db}

theorem stages_of (done : runJobs env db = .ok v) : ∃ u t b x y, Stages env db u t b x y v := by
  obtain ⟨a, promoted, rest⟩ := bind_ok.mp done
  obtain ⟨b, answered, rest⟩ := bind_ok.mp rest
  obtain ⟨x, replied, rest⟩ := bind_ok.mp rest
  obtain ⟨y, split, managed⟩ := bind_ok.mp rest
  obtain ⟨u, completed, rest⟩ := bind_ok.mp promoted
  obtain ⟨t, requested, last⟩ := bind_ok.mp rest
  obtain rfl := pure_ok.mp last
  exact ⟨u, t, b, x, y, completed, requested, answered, replied, split, managed⟩

theorem mem_updateJobs {condition : Job → Bool} {change : Job → Job} {job : Job}
    (member : job ∈ (db.updateJobs condition change).jobScheduler) : ∃ old ∈ db.jobScheduler,
      (condition old = true ∧ job = change old) ∨ (condition old = false ∧ job = old) := by
  obtain ⟨old, inside, rfl⟩ := List.mem_map.mp member
  refine ⟨old, inside, ?_⟩
  by_cases holds : condition old = true
  · exact .inl ⟨holds, by simp [holds]⟩
  · exact .inr ⟨Bool.eq_false_iff.mpr holds, by simp [holds]⟩

theorem updateJobs_leaves {state : JState} {first second : Job → Bool} {change change' : Job → Job}
    (both : ∀ job, job.jstate = state → first job = true ∨ second job = true)
    (other : ∀ job, (change job).jstate ≠ state) (other' : ∀ job, (change' job).jstate ≠ state) :
    ∀ job ∈ ((db.updateJobs first change).updateJobs second change').jobScheduler,
      job.jstate ≠ state := by
  intro job member same
  obtain ⟨mid, between, ⟨-, rfl⟩ | ⟨unchosen', rfl⟩⟩ := mem_updateJobs member
  · exact other' mid same
  · obtain ⟨old, -, ⟨-, moved⟩ | ⟨unchosen, stays⟩⟩ := mem_updateJobs between
    · exact other old (moved ▸ same)
    · rcases both job same with chosen | chosen
      · exact Bool.noConfusion (chosen.symm.trans (stays ▸ unchosen))
      · exact Bool.noConfusion (chosen.symm.trans unchosen')

theorem rootDestinations_update (condition : Job → Bool) (t : JState) :
    rootDestinations (db.updateJobs condition fun job => { job with jstate := t }) =
      rootDestinations db := by
  unfold rootDestinations Db.updateJobs
  rw [List.filter_map, List.map_map]
  have test : ((fun job : Job => decide (job.jobid = job.jparentJobid)) ∘
      fun job => if condition job then { job with jstate := t } else job) =
      fun job => decide (job.jobid = job.jparentJobid) := by
    funext job
    by_cases chosen : condition job = true <;> simp [chosen]
  rw [test]
  refine List.map_congr_left fun job _ => ?_
  by_cases chosen : condition job = true <;> simp [chosen]

theorem receive_settles (db : Db) : ∀ job ∈ (receive db).jobScheduler, ¬ Incoming job.jstate := by
  have hashed : ∀ job ∈ (checkHash db).jobScheduler, job.jstate ≠ .N1 := by
    refine updateJobs_leaves (fun job state => ?_) (fun _ => nofun) fun _ => nofun
    cases hashMatches job.jobdata <;> simp [state]
  have routed : ∀ job ∈ (route (checkHash db)).jobScheduler, job.jstate ≠ .N2 := by
    simp only [route, rootDestinations_update]
    refine updateJobs_leaves (fun job state => ?_) (fun _ => nofun) fun _ => nofun
    by_cases own : messageDestination job.jobdata ∈ rootDestinations (checkHash db) <;>
      simp [state, own]
  have unhashed : ∀ job ∈ (route (checkHash db)).jobScheduler, job.jstate ≠ .N1 := by
    intro job member state
    obtain ⟨mid, between, ⟨-, rfl⟩ | ⟨-, rfl⟩⟩ := mem_updateJobs member
    · cases state
    · obtain ⟨old, before, ⟨-, rfl⟩ | ⟨-, rfl⟩⟩ := mem_updateJobs between
      · cases state
      · exact hashed _ before state
  intro job member incoming
  obtain ⟨old, before, ⟨-, rfl⟩ | ⟨unchosen, rfl⟩⟩ := mem_updateJobs member
  · rcases incoming with h | h | h <;> cases h
  · rcases incoming with h | h | h
    · exact unhashed _ before h
    · exact routed _ before h
    · simp [h] at unchosen

theorem Promotes.of_n4_settled {a : JState} (steps : Promotes w a .N4) (settled : ¬ Incoming a) :
    a = .N4 := (Promotes.of_n4 steps).resolve_right settled

theorem pending_evolves {digit : String} (evolves : Evolves w made u v)
    (each : ∀ job, made job → job.jstate ≠ .N4)
    (settled : ∀ job ∈ u.jobScheduler, ¬ Incoming job.jstate) (none : pending digit u = []) :
    pending digit v = [] := by
  obtain ⟨-, change, fresh, kept, rows, built⟩ := evolves
  refine List.filter_eq_nil_iff.mpr fun job member => ?_
  simp only [Bool.and_eq_true, decide_eq_true_eq]
  rintro ⟨state, type⟩
  rw [rows] at member
  rcases List.mem_append.mp member with old | new
  · obtain ⟨q, inside, rfl⟩ := List.mem_map.mp old
    have before : q.jstate = .N4 :=
      Promotes.of_n4_settled (state ▸ (kept q).jstate) (settled q inside)
    have same : (change q).jtype = q.jtype :=
      (kept q).jtype.resolve_right fun h => settled q inside h.1
    have listed := List.filter_eq_nil_iff.mp none q inside
    exact listed (by simp [before, ← same, type])
  · exact each job (built job new) state

theorem settled_evolves (evolves : Evolves w made u v)
    (each : ∀ job, made job → ¬ Incoming job.jstate)
    (settled : ∀ job ∈ u.jobScheduler, ¬ Incoming job.jstate) :
    ∀ job ∈ v.jobScheduler, ¬ Incoming job.jstate := by
  obtain ⟨-, change, fresh, kept, rows, built⟩ := evolves
  intro job member incoming
  rw [rows] at member
  rcases List.mem_append.mp member with old | new
  · obtain ⟨q, inside, rfl⟩ := List.mem_map.mp old
    exact settled q inside (Promotes.incoming (kept q).jstate incoming)
  · exact each job (built job new) incoming

theorem IsNewRow.settled {job : Job} (row : IsNewRow job) : ¬ Incoming job.jstate := by
  rcases row with state | state
  · rw [state]
    decide
  · rw [state]
    decide

theorem pending_finish (digit : String) (db : Db) : pending digit (finishPending digit db) = [] := by
  refine List.filter_eq_nil_iff.mpr fun job member => ?_
  obtain ⟨old, -, ⟨-, rfl⟩ | ⟨unchosen, rfl⟩⟩ := mem_updateJobs member
  · simp
  · exact Bool.not_eq_true _ ▸ unchosen

theorem childrenOf_evolves (tree : Tree root u) (evolves : Evolves w made u v)
    (each : ∀ job, made job → job.jparentJobid = root) {parent : Uuid} (other : parent ≠ root) :
    childrenOf v.jobScheduler parent = childrenOf u.jobScheduler parent := by
  obtain ⟨-, change, fresh, kept, rows, built⟩ := evolves
  have none : childrenOf fresh parent = [] := childrenOf_none fun row inside same =>
    other (same.symm.trans (each row (built row inside)))
  rw [rows, childrenOf_append, none, List.append_nil,
    childrenOf_map fun job => (kept job).jparentJobid]
  refine (List.map_congr_left fun child present => ?_).trans (List.map_id _)
  obtain ⟨inside, mine⟩ := mem_childrenOf.mp present
  exact (kept child).fixed (tree.below child inside (mine ▸ other)).1

end Rows

section Stages

variable {env : Env} {root : Uuid} {db u t b x y v : Db}

theorem UnderRoot.calm {job : Job} (row : UnderRoot root job) : ¬ Transient job.jstate := by
  rw [row.state]
  decide

theorem UnderRoot.fixed {job : Job} (row : UnderRoot root job) : Fixed job.jstate :=
  row.state ▸ fixed_s5

theorem completed_evolves (completed : completeSplit (receive db) = .ok u) :
    Evolves ⟨true, false⟩ (fun _ => False) (receive db) u := (evolves_completeSplit rfl completed).1

theorem tree_completed (tree : Tree root db) (completed : completeSplit (receive db) = .ok u) :
    Tree root (receive db) ∧ Tree root u := by
  have first : Tree root (receive db) :=
    tree.evolves rfl (receive_ok db : Evolves quiet (fun _ => False) _ _ ∧ _).1 nofun
  exact ⟨first, first.evolves rfl (completed_evolves completed) nofun⟩

theorem Stages.untilSplit (stages : Stages env db u t b x y v) (tree : Tree root u) :
    Evolves quiet (UnderRoot root) (completeSingle u) x ∧ Tree root x := by
  have start : Tree root (completeSingle u) :=
    tree.evolves rfl (evolves_completeSingle u : Evolves quiet (fun _ => False) _ _) nofun
  have requests : Evolves quiet (UnderRoot root) (completeSingle u) t := by
    refine (requestConsensus_ok stages.requested).1.mono fun job row => ?_
    obtain ⟨i, si, -, js, member, state, made⟩ := row
    obtain ⟨-, ready, -, parent, -⟩ := consensusJob_row made
    exact ⟨parent.trans (start.under_root member (by rw [state]; decide)), ready⟩
  have known : Evolves quiet (UnderRoot root) (completeSingle u) (startKnown t) :=
    requests.trans (fun _ => UnderRoot.fixed) (evolves_startKnown t)
  have middle : Tree root (startKnown t) :=
    start.evolves rfl known fun job row => ⟨row.parent, row.calm⟩
  have replies : Evolves quiet (UnderRoot root) (startKnown t) b := by
    rcases answerRequests_ok stages.answered with ⟨-, rfl⟩ | ⟨request, r, reply, p, q, one, -,
      written, made, inserted, rfl⟩
    · exact evolves_finishPending "4" _
    · have pending : request ∈ pending "4" (startKnown t) := one ▸ List.mem_singleton.mpr rfl
      obtain ⟨member, test⟩ := List.mem_filter.mp pending
      simp only [Bool.and_eq_true, decide_eq_true_eq] at test
      obtain ⟨-, ready, -, parent, -⟩ := consensusJob_row made
      have top : request.jparentJobid = root := middle.under_root member (by rw [test.1]; decide)
      have first : Evolves quiet (UnderRoot root) (startKnown t) p :=
        .of_eq (upsertSysinfo_frame written).jobScheduler
      have second : Evolves quiet (UnderRoot root) p q := by
        refine ⟨keys_insertJob inserted, id, [reply], JobKept.refl, ?_, fun job single => ?_⟩
        · rw [(insertJob_ok inserted).1, List.map_id]
        · rw [List.mem_singleton.mp single]
          exact ⟨parent.trans top, ready⟩
      exact (first.trans (fun _ => UnderRoot.fixed) second).trans (fun _ => UnderRoot.fixed)
        (evolves_finishPending "4" q)
  have last : Evolves quiet (UnderRoot root) b x := by
    obtain ⟨c, applied, rfl⟩ := takeReplies_ok stages.replied
    exact (Evolves.of_eq (applyReplies_frame applied).jobScheduler).trans
      (fun _ => UnderRoot.fixed) (evolves_finishPending "5" c)
  have whole := (known.trans (fun _ => UnderRoot.fixed) replies).trans
    (fun _ => UnderRoot.fixed) last
  exact ⟨whole, start.evolves rfl whole fun job row => ⟨row.parent, row.calm⟩⟩

theorem waits_split_cases (tree : Tree root x) (split : splitJobs env x = .ok y) {p : Job}
    (member : p ∈ y.jobScheduler) (waits : p.jstate = .S2W ∨ p.jstate = .S3W) :
    (p ∈ x.jobScheduler ∧ childrenOf y.jobScheduler p.jobid = childrenOf x.jobScheduler p.jobid) ∨
      ∀ child ∈ childrenOf y.jobScheduler p.jobid, child.jstate = .S4 := by
  obtain ⟨fate, singles, chunks, infos, rows, -⟩ := splitJobs_rows tree.keys tree.settled split
  have children (q : Job) : childrenOf y.jobScheduler q.jobid =
      (childrenOf x.jobScheduler q.jobid).map fate ++
        childrenOf (singles ++ chunks ++ infos) q.jobid := by
    rw [rows.rows, childrenOf_append, childrenOf_map fun job => (rows.kept job).jparentJobid]
  rw [rows.rows] at member
  rcases List.mem_append.mp member with old | new
  · obtain ⟨q, inside, rfl⟩ := List.mem_map.mp old
    by_cases stays : fate q = q
    · rw [stays] at waits ⊢
      have other : q.jobid ≠ root := fun top => by
        have fixed := tree.top q inside top
        rcases waits with state | state
        · exact fixed ⟨true, true⟩ .C (state ▸ .completeSplit rfl)
        · exact fixed ⟨true, true⟩ .C (state ▸ .completeSingle)
      have unmoved : (childrenOf x.jobScheduler q.jobid).map fate =
          childrenOf x.jobScheduler q.jobid := by
        refine (List.map_congr_left fun child present => ?_).trans (List.map_id _)
        obtain ⟨there, mine⟩ := mem_childrenOf.mp present
        exact (rows.fates child there).fixed (tree.below child there (mine ▸ other)).1
      refine .inl ⟨inside, ?_⟩
      rw [children, unmoved, rows.none tree.keys inside stays, List.append_nil]
    · -- a job that has just been split had no children before
      have start : q.jstate = .S1 := by
        cases rows.fates q inside with
        | same same => exact absurd same stays
        | split state _ _ => exact state
        | single state _ => exact state
      have none : childrenOf x.jobScheduler q.jobid = [] := by
        refine childrenOf_none fun row there mine => ?_
        have early : Early q.jstate := start ▸ (by decide : Early .S1)
        have other : row.jparentJobid ≠ root := fun top => by
          have fixed := tree.top q inside (mine.symm.trans top)
          exact Tree.early_not_fixed early fixed
        exact (tree.below row there other).2 q inside mine.symm early
      rw [(rows.kept q).jobid, children, none, List.map_nil, List.nil_append]
      exact .inr fun child present => (rows.maker (mem_childrenOf.mp present).1).1
  · rcases waits with state | state
    · cases state.symm.trans (rows.maker new).1
    · cases state.symm.trans (rows.maker new).1

/-- What every pass leaves: nothing that is incoming or pending, and no job that the subqueries
about children would complete. -/
structure Rested (db : Db) : Prop where
  received : ∀ job ∈ db.jobScheduler, ¬ Incoming job.jstate
  requests : pending "4" db = []
  replies : pending "5" db = []
  splits : ∀ job ∈ db.jobScheduler, job.jstate = .S2W →
    ¬ Counts (childrenOf db.jobScheduler job.jobid)
  singles : ∀ job ∈ db.jobScheduler, job.jstate = .S3W →
    ∀ child ∈ childrenOf db.jobScheduler job.jobid, child.jstate ≠ .C

theorem not_counts_ready {children : List Job} (ready : ∀ child ∈ children, child.jstate = .S4) :
    ¬ Counts children := by
  rintro ⟨-, -, -, some, -⟩
  apply some
  rw [List.length_eq_zero_iff, List.filter_eq_nil_iff]
  intro child member
  simp [ready child member]

theorem Promotes.of_waiting {w : Scope} (off : w.splits = false) {a s : JState}
    (waits : s = .S2W ∨ s = .S3W) (steps : Promotes w a s) : a = s := by
  rcases Relation.ReflTransGen.cases_tail steps with same | ⟨c, -, last⟩
  · exact same.symm
  · rcases waits with rfl | rfl
    · cases last with
      | awaitSplit on => exact absurd on (by simp [off])
    · cases last with
      | awaitSingle on => exact absurd on (by simp [off])

theorem Stages.waited (stages : Stages env db u t b x y v) (tree : Tree root db) {p : Job}
    (member : p ∈ v.jobScheduler) (waits : p.jstate = .S2W ∨ p.jstate = .S3W) :
    (∃ q ∈ (completeSingle u).jobScheduler, q.jstate = p.jstate ∧ q.jobid = p.jobid ∧
      p.jobid ≠ root ∧
      childrenOf v.jobScheduler p.jobid = childrenOf (completeSingle u).jobScheduler p.jobid) ∨
      ∀ child ∈ childrenOf v.jobScheduler p.jobid, child.jstate = .S4 := by
  obtain ⟨-, second⟩ := tree_completed tree stages.completed
  have start : Tree root (completeSingle u) :=
    second.evolves rfl (evolves_completeSingle u : Evolves quiet (fun _ => False) _ _) nofun
  obtain ⟨evolves, third⟩ := stages.untilSplit second
  have rows : v.jobScheduler = y.jobScheduler := (manageConns_frame stages.managed).jobScheduler
  rw [rows] at member ⊢
  rcases waits_split_cases third stages.split member waits with ⟨inside, same⟩ | ready
  · have other : p.jobid ≠ root := fun top => by
      have fixed := third.top p inside top
      rcases waits with state | state
      · exact fixed ⟨true, true⟩ .C (state ▸ .completeSplit rfl)
      · exact fixed ⟨true, true⟩ .C (state ▸ .completeSingle)
    rw [same, childrenOf_evolves start evolves (fun _ row => row.parent) other]
    obtain ⟨-, change, fresh, kept, rows, built⟩ := evolves
    rw [rows] at inside
    rcases List.mem_append.mp inside with old | new
    · obtain ⟨q, before, rfl⟩ := List.mem_map.mp old
      exact .inl ⟨q, before, Promotes.of_waiting rfl waits (kept q).jstate, (kept q).jobid.symm,
        other, rfl⟩
    · have state := (built p new).state
      rcases waits with h | h
      · cases h.symm.trans state
      · cases h.symm.trans state
  · exact .inr ready

theorem Stages.settled (stages : Stages env db u t b x y v) :
    (∀ job ∈ (startKnown t).jobScheduler, ¬ Incoming job.jstate) ∧
      (∀ job ∈ b.jobScheduler, ¬ Incoming job.jstate) ∧
      ∀ job ∈ x.jobScheduler, ¬ Incoming job.jstate := by
  have first : ∀ job ∈ u.jobScheduler, ¬ Incoming job.jstate :=
    settled_evolves (completed_evolves stages.completed) nofun (receive_settles db)
  have second : ∀ job ∈ t.jobScheduler, ¬ Incoming job.jstate := by
    have single : ∀ job ∈ (completeSingle u).jobScheduler, ¬ Incoming job.jstate :=
      settled_evolves (evolves_completeSingle u : Evolves quiet (fun _ => False) _ _) nofun first
    exact settled_evolves (requestConsensus_ok (w := quiet) stages.requested).1
      (fun job row => IsNewRow.settled row.new) single
  have third : ∀ job ∈ (startKnown t).jobScheduler, ¬ Incoming job.jstate :=
    settled_evolves (evolves_startKnown t : Evolves quiet (fun _ => False) _ _) nofun second
  have fourth : ∀ job ∈ b.jobScheduler, ¬ Incoming job.jstate :=
    settled_evolves (evolves_answerRequests (w := quiet) stages.answered)
      (fun _ => IsNewRow.settled) third
  refine ⟨third, fourth, ?_⟩
  obtain ⟨c, applied, rfl⟩ := takeReplies_ok stages.replied
  have same : ∀ job ∈ c.jobScheduler, ¬ Incoming job.jstate :=
    (applyReplies_frame applied).jobScheduler ▸ fourth
  exact settled_evolves (evolves_finishPending "5" c : Evolves quiet (fun _ => False) _ _) nofun same

theorem Stages.finished (stages : Stages env db u t b x y v) :
    (∀ job ∈ v.jobScheduler, ¬ Incoming job.jstate) ∧ pending "4" v = [] ∧ pending "5" v = [] := by
  obtain ⟨settledA, settledB, settledX⟩ := stages.settled
  have rows : v.jobScheduler = y.jobScheduler := (manageConns_frame stages.managed).jobScheduler
  have split := (splitJobs_ok (w := ⟨true, true⟩) rfl stages.split).1
  have ready (job : Job) (row : IsMessageRow job) : ¬ Incoming job.jstate ∧ job.jstate ≠ .N4 := by
    rw [row.jstate]
    decide
  refine ⟨?_, ?_, ?_⟩
  · rw [rows]
    exact settled_evolves split (fun job row => (ready job row).1) settledX
  · have answered : pending "4" b = [] := by
      rcases answerRequests_ok stages.answered with ⟨-, rfl⟩ | ⟨_, _, _, _, q, -, -, -, -, -, rfl⟩
      · exact pending_finish "4" _
      · exact pending_finish "4" q
    exact pending_evolves (finishPass_ok (w := ⟨true, true⟩) rfl stages.replied
      (bind_ok.mpr ⟨y, stages.split, stages.managed⟩)).1 (fun job row => (ready job row).2) settledB
      answered
  · have replied : pending "5" x = [] := by
      obtain ⟨c, -, rfl⟩ := takeReplies_ok stages.replied
      exact pending_finish "5" c
    rw [pending, rows]
    exact pending_evolves split (fun job row => (ready job row).2) settledX replied

theorem rested_pass (tree : Tree root db) (stages : Stages env db u t b x y v) : Rested v := by
  obtain ⟨received, requests, replies⟩ := stages.finished
  have rows : v.jobScheduler = y.jobScheduler := (manageConns_frame stages.managed).jobScheduler
  refine ⟨received, requests, replies, ?_, ?_⟩
  · intro job member state
    rcases stages.waited tree member (.inl state) with ⟨q, inside, same, id, other, children⟩ | ready
    · obtain ⟨p, before, ⟨-, rfl⟩ | ⟨-, rfl⟩⟩ := mem_updateJobs inside
      · cases same.trans state
      · obtain ⟨first, second⟩ := tree_completed tree stages.completed
        have single : childrenOf (completeSingle u).jobScheduler job.jobid =
            childrenOf (receive db).jobScheduler job.jobid := by
          rw [childrenOf_evolves second
            (evolves_completeSingle u : Evolves quiet (fun _ => False) _ _) (fun _ none => none.elim) other]
          exact childrenOf_evolves first (completed_evolves stages.completed) (fun _ none => none.elim) other
        rw [children, single]
        -- the statement has left the job in S-2W, so the subquery did not have it
        rcases completeSplit_ok stages.completed with ⟨none, rfl⟩ | ⟨parents, read, rfl⟩
        · exact absurd (same.trans state) (none q before)
        · obtain ⟨old, -, ⟨-, rfl⟩ | ⟨unchosen, rfl⟩⟩ := mem_updateJobs before
          · cases same.trans state
          · have absent : q.jobid ∉ parents := by simpa [same.trans state] using unchosen
            rw [← id]
            exact fun counts => absent ((completedParents_iff read q.jobid).mpr counts)
    · exact not_counts_ready ready
  · intro job member state child present completed
    rcases stages.waited tree member (.inr state) with ⟨q, inside, same, id, other, children⟩ | ready
    · obtain ⟨p, before, ⟨-, rfl⟩ | ⟨unchosen, rfl⟩⟩ := mem_updateJobs inside
      · cases same.trans state
      · obtain ⟨-, second⟩ := tree_completed tree stages.completed
        rw [children, childrenOf_evolves second
          (evolves_completeSingle u : Evolves quiet (fun _ => False) _ _) (fun _ none => none.elim) other] at present
        obtain ⟨there, mine⟩ := mem_childrenOf.mp present
        simp only [same.trans state, decide_true, Bool.true_and, List.any_eq_false,
          Bool.and_eq_true, decide_eq_true_eq] at unchosen
        exact unchosen child there ⟨completed, mine.trans id.symm⟩
    · cases completed.symm.trans (ready child present)

theorem splitJobs_stays (calm : ∀ job ∈ x.jobScheduler, ¬ Transient job.jstate)
    (done : splitJobs env x = .ok y) {job : Job} (member : job ∈ y.jobScheduler)
    (start : job.jstate = .S1) : measured x (fun l r => l > r) job = .ok false ∧
      measured x (fun l r => l ≤ r) job = .ok false := by
  obtain ⟨a, split, rest⟩ := bind_ok.mp done
  obtain ⟨b, single, rest⟩ := bind_ok.mp rest
  obtain ⟨c, singled, rest⟩ := bind_ok.mp rest
  obtain ⟨d, chunked, rest⟩ := bind_ok.mp rest
  obtain ⟨e, informed, last⟩ := bind_ok.mp rest
  obtain rfl := pure_ok.mp last
  have waited : job ∈ e.jobScheduler := by
    rw [awaitChildren_rows] at member
    obtain ⟨row, inside, rfl⟩ := List.mem_map.mp member
    have same : awaiting e row = row := by
      unfold awaiting at start ⊢
      by_cases cut : (row.jstate = .S2 && knownName e row.jdestination) = true
      · simp [cut] at start
      · by_cases short : (row.jstate = .S3 && knownName e row.jdestination) = true
        · simp [cut, short] at start
        · simp [cut, short]
    rwa [same]
  -- the messages are in S-4
  have untouched : job ∈ b.jobScheduler := by
    obtain ⟨a', b', fresh, split', single', -, appended, ready⟩ :=
      (Made.CutState.infos a b c split single singled chunked).before
    obtain rfl := Except.ok.inj (split.symm.trans split')
    obtain rfl := Except.ok.inj (single.symm.trans single')
    obtain ⟨infos, rows, made⟩ := Made.infoJobs_rows informed
    rw [rows, appended, List.append_assoc] at waited
    rcases List.mem_append.mp waited with old | new
    · exact old
    · rcases List.mem_append.mp new with message | info
      · cases start.symm.trans (ready job message)
      · obtain ⟨_, _, _, -, -, built⟩ := made job info
        obtain ⟨_, _, mdata, -, -, -, -, last⟩ := infoMessage_ok built
        cases start.symm.trans (messageJob_ok last).2.2.1
  rw [middle_rows split single] at untouched
  obtain ⟨q, inside, same⟩ := List.mem_map.mp untouched
  have stays : splitting x q = q ∧ singling x q = q ∧ q = job := by
    rcases split_cases (calm q inside) with ⟨h, -⟩ | ⟨-, -, h, -⟩ | ⟨-, -, -, h, -⟩
    · have first : splitting x q = q := by
        by_cases long : (if q.jstate = .S1 then measured x (fun l r => l > r) q
            else return false) = .ok true
        · have moved : splitting x q = { q with jstate := .S2 } := if_pos long
          rw [moved, singling, if_neg (by simp [pure, Except.pure])] at h
          exact moved.trans h
        · exact if_neg long
      rw [first] at h
      exact ⟨first, h, h.symm.trans ((congrArg (singling x) first).symm.trans same)⟩
    · rw [h] at same
      cases start.symm.trans (congrArg Job.jstate same.symm)
    · rw [h] at same
      cases start.symm.trans (congrArg Job.jstate same.symm)
  obtain ⟨first, second, rfl⟩ := stays
  have other (t : JState) (moved : { q with jstate := t } = q) : t = .S1 :=
    (congrArg Job.jstate moved).trans start
  obtain ⟨only, chosen, rows⟩ := updateJobsM_ok split
  obtain ⟨long, read⟩ := chosen q inside
  have there : q ∈ a.jobScheduler := by
    rw [rows]
    exact List.mem_map.mpr ⟨q, inside, first⟩
  obtain ⟨short, read'⟩ := (updateJobsM_ok single).2.1 q there
  rw [if_pos start] at read read'
  rw [measured_frame only] at read'
  cases long with
  | true => cases other .S2 ((if_pos (by rw [if_pos start, read])).symm.trans first)
  | false =>
      cases short with
      | true => cases other .S3 ((if_pos (by rw [if_pos start, read'])).symm.trans second)
      | false => exact ⟨read, read'⟩

end Stages

section Conns

variable {db db' y v : Db}

theorem registerConn_keeps {address other : Int}
    (known : (db.sendingConns.any fun sc => sc.sipaddr = other) = true) :
    ((registerConn db address).sendingConns.any fun sc => sc.sipaddr = other) = true := by
  unfold registerConn
  split
  · exact known
  · rw [List.any_append, known, Bool.true_or]

theorem registerConn_knows (db : Db) (address : Int) :
    ((registerConn db address).sendingConns.any fun sc => sc.sipaddr = address) = true := by
  unfold registerConn
  split
  · next known => exact known
  · simp

theorem registerConns_knows {addresses : List Int} : ∀ {db : Db} {address : Int},
    (address ∈ addresses ∨ (db.sendingConns.any fun sc => sc.sipaddr = address) = true) →
    ((addresses.foldl registerConn db).sendingConns.any fun sc => sc.sipaddr = address) = true := by
  induction addresses with
  | nil => exact fun known => known.resolve_left List.not_mem_nil
  | cons first rest ih =>
      intro db address known
      refine ih ?_
      rcases known with listed | known
      · rcases List.mem_cons.mp listed with rfl | later
        · exact .inr (registerConn_knows db address)
        · exact .inl later
      · exact .inr (registerConn_keeps known)

theorem insertComm_covers {mtype : MType} {row : Int × Option Int}
    (done : insertComm mtype db row = .ok db') :
    Covered db' row ∧ ∀ other, Covered db other → Covered db' other := by
  unfold insertComm at done
  split at done
  · cases done
  · next mdata2 known =>
      split at done
      · next conflict =>
          obtain rfl := Except.ok.inj done
          exact ⟨⟨mdata2, known, conflict⟩, fun _ => id⟩
      · obtain rfl := Except.ok.inj done
        refine ⟨⟨mdata2, known, by simp⟩, fun other covered => ?_⟩
        obtain ⟨data, same, listed⟩ := covered
        exact ⟨data, same, by rw [List.any_append, listed, Bool.true_or]⟩

theorem insertComms_covers {mtype : MType} {rows : List (Int × Option Int)} : ∀ {db db' : Db},
    rows.foldlM (insertComm mtype) db = .ok db' →
    (∀ row ∈ rows, Covered db' row) ∧ ∀ other, Covered db other → Covered db' other := by
  induction rows with
  | nil =>
      intro db db' done
      obtain rfl := pure_ok.mp done
      exact ⟨nofun, fun _ => id⟩
  | cons row rest ih =>
      intro db db' done
      obtain ⟨u, head, tail⟩ := bind_ok.mp done
      obtain ⟨mine, keeps⟩ := insertComm_covers head
      obtain ⟨all, later⟩ := ih tail
      refine ⟨fun other member => ?_, fun other covered => later other (keeps other covered)⟩
      rcases List.mem_cons.mp member with rfl | inside
      · exact later other mine
      · exact all other inside

theorem manageConns_settles (done : manageConns y = .ok v) :
    (∀ si ∈ v.sysinfo, hasReadyJob v si = true →
      (v.sendingConns.any fun sc => sc.sipaddr = si.ipaddress) = true) ∧
      (∀ row ∈ openRows v, Covered v row) ∧ ∀ row ∈ closeRows v, Covered v row := by
  obtain ⟨p, opened, closed⟩ := bind_ok.mp done
  have first := onlyConns_registerConns y
  obtain ⟨second, conns⟩ := onlyConns_insertComms opened
  obtain ⟨third, conns'⟩ := onlyConns_insertComms closed
  have whole := (first.trans second).trans third
  have same : v.sendingConns = (registerConns y).sendingConns := conns'.trans conns
  obtain ⟨openedAll, -⟩ := insertComms_covers opened
  obtain ⟨closedAll, keeps⟩ := insertComms_covers closed
  refine ⟨fun si member ready => ?_, fun row member => ?_, fun row member => ?_⟩
  · rw [same]
    refine registerConns_knows (.inl (List.mem_dedup.mpr (List.mem_map_of_mem ?_)))
    refine List.mem_filter.mpr ⟨whole.sysinfo ▸ member, ?_⟩
    simpa only [hasReadyJob, whole.jobScheduler] using ready
  · refine keeps row (openedAll row ?_)
    have later := second.trans third
    simpa only [openRows, hasReadyJob, later.jobScheduler, later.sysinfo, same] using member
  · refine closedAll row ?_
    simpa only [closeRows, third.jobScheduler, third.sysinfo, conns'] using member

end Conns

section Passes

variable {env env' : Env} {root : Uuid} {db u t b x y v : Db}

theorem Stages.quiet (stages : Stages env db u t b x y v) (rested : Rested db) :
    b.sysinfo = (startKnown t).sysinfo ∧ x.sysinfo = b.sysinfo := by
  have promoted : promote env db = .ok (startKnown t) :=
    bind_ok.mpr ⟨u, stages.completed, bind_ok.mpr ⟨t, stages.requested, rfl⟩⟩
  have evolves := (promote_ok (w := ⟨true, false⟩) rfl promoted).1
  have made (job : Job) (row : IsRequestRow env db job) : job.jstate ≠ .N4 := by
    obtain ⟨i, si, -, js, -, -, built⟩ := row
    rw [(consensusJob_row built).2.1]
    decide
  have requests : pending "4" (startKnown t) = [] :=
    pending_evolves evolves made rested.received rested.requests
  have replies : pending "5" (startKnown t) = [] :=
    pending_evolves evolves made rested.received rested.replies
  have settled := settled_evolves evolves (fun job row => IsNewRow.settled row.new) rested.received
  have replied : pending "5" b = [] := by
    refine pending_evolves (evolves_answerRequests (w := FileSharing.quiet) stages.answered)
      (fun job row => ?_) settled replies
    rcases row with state | state
    · simp [state]
    · simp [state]
  constructor
  · rcases answerRequests_ok stages.answered with ⟨-, rfl⟩ | ⟨request, _, _, _, _, one, -⟩
    · rfl
    · cases requests.symm.trans one
  · obtain ⟨c, applied, rfl⟩ := takeReplies_ok stages.replied
    have none : cteSysinfo b = .ok [] := by
      unfold cteSysinfo
      rw [replied]
      rfl
    rcases applyReplies_ok applied with rfl | ⟨reply, read, -, -⟩
    · rfl
    · cases none.symm.trans read

/-- A second pass leaves nothing to do. -/
theorem idle_second (tree : Tree root db) (rested : Rested db) (done : runJobs env db = .ok v) :
    Idle v := by
  obtain ⟨u, t, b, x, y, stages⟩ := stages_of done
  obtain ⟨received, requests, replies, splits, singles⟩ := rested_pass tree stages
  obtain ⟨registered, opened, closed⟩ := manageConns_settles stages.managed
  have conns := manageConns_frame stages.managed
  have only := (splitJobs_ok (w := ⟨true, true⟩) rfl stages.split).2
  obtain ⟨sysinfoB, sysinfoX⟩ := stages.quiet rested
  have sysinfo : v.sysinfo = t.sysinfo :=
    conns.sysinfo.trans (only.sysinfo.trans (sysinfoX.trans sysinfoB))
  obtain ⟨-, third⟩ := stages.untilSplit (tree_completed tree stages.completed).2
  refine ⟨received, splits, singles, fun job member state => ?_, requests, replies,
    fun job member start => ?_, (tree.runJobs done).settled, registered, opened, closed⟩
  · obtain ⟨-, change, fresh, kept, rows, built⟩ := evolves_afterPromote (w := ⟨true, true⟩) rfl
      (bind_ok.mpr ⟨b, stages.answered, bind_ok.mpr ⟨x, stages.replied,
        bind_ok.mpr ⟨y, stages.split, stages.managed⟩⟩⟩)
    rw [rows] at member
    rcases List.mem_append.mp member with old | new
    · obtain ⟨q, inside, rfl⟩ := List.mem_map.mp old
      have before : q.jstate = .S := Promotes.of_s (state ▸ (kept q).jstate)
      have destination : (change q).jdestination = q.jdestination :=
        (kept q).jdestination.resolve_right fun h => by
          rcases h.1 with h | h | h
          · cases h.symm.trans before
          · cases h.symm.trans before
          · cases h.symm.trans before
      obtain ⟨old, -, ⟨-, rfl⟩ | ⟨unchosen, rfl⟩⟩ := mem_updateJobs inside
      · cases before
      · rw [destination, knownName, sysinfo]
        simpa [before, knownName] using unchosen
    · rcases built job new with h | h
      · cases h.symm.trans state
      · cases h.symm.trans state
  · rw [conns.jobScheduler] at member
    have same : measured v = measured x := by
      funext test job
      simp only [measured, conns.files, conns.sysinfo, only.files, only.sysinfo]
    rw [same]
    exact splitJobs_stays third.settled stages.split member start

/-- After two passes a third one changes no table, and it completes exactly if no job is in S-2W
or the counts that it then reads are readable. -/
theorem third_pass_idle {own : SelfInfo} {known : List SysInfo} {ops : List Operation}
    {first second third : Env} {db1 db2 : Db}
    (reached : run Db.perform (startDb root own known) ops = some db)
    (once : runJobs first db = .ok db1) (twice : runJobs second db1 = .ok db2) :
    ((∃ db3, runJobs third db2 = .ok db3 ∧ SameTables db2 db3) ↔ Completes db2) ∧
      ∀ db3, runJobs third db2 = .ok db3 → SameTables db2 db3 := by
  have tree : Tree root db := Tree.reachable reached
  obtain ⟨u, t, b, x, y, stages⟩ := stages_of once
  exact idle_pass (idle_second (tree.runJobs once) (rested_pass tree stages) twice)

end Passes

section Samples

open Capacities Lengths

def shortInfo : Bytea :=
  ((createMessage sampleEnv.now (Uuid.ofNat 8).text (ascii "3") [] [] (ascii "   M2")
    (ascii "   M3") (ascii "5") (some 147)).toOption).getD []

def sendingUnknown (received : List Operation) : List Operation :=
  [.importFile ⟨ascii "f", List.replicate 10 7⟩,
    .sendFile (Uuid.ofNat 1) (ascii "f") (ascii "M2"),
    .storeData (Uuid.ofNat 2) 5
      (Requests.peerData { Requests.peerM2 with systemCapacity := 180 } (ascii "4"))] ++ received

def twoPasses (received : List Operation) : Option (Db × Db × Db) :=
  (run Db.perform (sampleStart []) (sendingUnknown received)).bind fun db =>
    (runJobs (envFrom 1000) db).toOption.bind fun db1 =>
      (runJobs (envFrom 2000) db1).toOption.map fun db2 => (db, db1, db2)

theorem twoPasses_some (received : List Operation) (test : Db → Bool)
    (holds : (twoPasses received).map (fun s => test s.2.2) = some true) :
    ∃ db db1 db2, run Db.perform (sampleStart []) (sendingUnknown received) = some db ∧
      runJobs (envFrom 1000) db = .ok db1 ∧ runJobs (envFrom 2000) db1 = .ok db2 ∧
      test db2 = true := by
  obtain ⟨states, found, good⟩ := Option.map_eq_some_iff.mp holds
  obtain ⟨db, reached, found⟩ := Option.bind_eq_some_iff.mp found
  obtain ⟨db1, once, found⟩ := Option.bind_eq_some_iff.mp found
  obtain ⟨db2, twice, rfl⟩ := Option.map_eq_some_iff.mp found
  exact ⟨db, db1, db2, reached, toOption_some once, toOption_some twice, good⟩

theorem sent_file_idle :
    ∃ db db1 db2 db3, run Db.perform (sampleStart []) (sendingUnknown []) = some db ∧
      runJobs (envFrom 1000) db = .ok db1 ∧ runJobs (envFrom 2000) db1 = .ok db2 ∧
      runJobs (envFrom 3000) db2 = .ok db3 ∧ SameTables db2 db3 := by
  obtain ⟨db, db1, db2, reached, once, twice, none⟩ := twoPasses_some []
    (fun db2 => (infoMessages db2).isEmpty) (by decide +kernel)
  have completes : Completes db2 := by
    refine .inr fun info member => ?_
    rw [List.isEmpty_iff.mp none] at member
    exact absurd member List.not_mem_nil
  obtain ⟨db3, done, same⟩ := (third_pass_idle reached once twice).1.mpr completes
  exact ⟨db, db1, db2, db3, reached, once, twice, done, same⟩

/-- The file is cut in the second pass; the third one reads the count of the short message. -/
theorem short_info_raises :
    ∃ db db1 db2, run Db.perform (sampleStart [])
        (sendingUnknown [.storeData (Uuid.ofNat 3) 5 shortInfo]) = some db ∧
      runJobs (envFrom 1000) db = .ok db1 ∧ runJobs (envFrom 2000) db1 = .ok db2 ∧
      runJobs (envFrom 3000) db2 = .error .invalidInteger := by
  obtain ⟨db, db1, db2, reached, once, twice, raises⟩ := twoPasses_some
    [.storeData (Uuid.ofNat 3) 5 shortInfo]
    (fun db2 => decide (runJobs (envFrom 3000) db2 = .error .invalidInteger)) (by decide +kernel)
  exact ⟨db, db1, db2, reached, once, twice, of_decide_eq_true raises⟩

end Samples

end Repetition

end FileSharing
