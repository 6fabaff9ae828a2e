import FileSharing.Database.Operations
import FileSharing.Database.Splitting

/-! When a pass completes a job that was split. -/

namespace FileSharing

open Library RunJobs

namespace Completion

section Statements

variable {env : Env} {root : Uuid} {db db' : Db}

/-- The messages of a job in S-1 that is cut into chunks are as many as they say: it is
joined with one row of `sysinfo` and one file, the chunks have a size, and the fields of
its messages are where they are read. -/
def SplitsOnce (db : Db) (js : Job) : Prop :=
  ∀ pairs, namesakes db js = .ok pairs → ∃ fd si capacity, pairs = [(fd, si)] ∧
    si.systemCapacity = some capacity ∧ Countable fd.fileData.length capacity ∧
    FiveBytes (btrim js.jsource) ∧ FiveBytes (btrim js.jdestination) ∧ FiveBytes js.jpriority

def CutsOnce (db : Db) : Prop :=
  ∀ js ∈ db.jobScheduler, js.jstate = .S1 → measured db (fun l r => l > r) js = .ok true →
    SplitsOnce db js

theorem not_fixed_s1 : ¬ Fixed .S1 := fun fixed => fixed ⟨true, true⟩ .S2 (.split rfl)

theorem Fate.fixed {job new : Job} (fate : Fate db job new) (fixed : Fixed job.jstate) :
    new = job := by
  cases fate with
  | same stays => exact stays
  | split state _ _ => exact absurd (state ▸ fixed) not_fixed_s1
  | single state _ => exact absurd (state ▸ fixed) not_fixed_s1

section Rows

variable {fate : Job → Job} {singles chunks infos : List Job}

theorem SplitRows.maker (rows : SplitRows db db' fate singles chunks infos) {row : Job}
    (member : row ∈ singles ++ chunks ++ infos) : row.jstate = .S4 ∧ ∃ q ∈ db.jobScheduler,
      q.jstate = .S1 ∧ ((fate q).jstate = .S2W ∨ (fate q).jstate = .S3W) ∧
      row.jparentJobid = q.jobid := by
  rcases List.mem_append.mp member with first | info
  · rcases List.mem_append.mp first with single | chunk
    · obtain ⟨ready, q, inside, waits, start, parent⟩ := rows.single row single
      exact ⟨ready, q, inside, start, .inr waits, parent⟩
    · obtain ⟨⟨ready, -⟩, q, inside, waits, start, parent⟩ := rows.chunk row chunk
      exact ⟨ready, q, inside, start, .inl waits, parent⟩
  · obtain ⟨⟨ready, -⟩, q, inside, waits, start, parent⟩ := rows.info row info
    exact ⟨ready, q, inside, start, .inl waits, parent⟩

theorem SplitRows.none (rows : SplitRows db db' fate singles chunks infos) (keys : db.Keys)
    {job : Job} (member : job ∈ db.jobScheduler) (stays : fate job = job) :
    childrenOf (singles ++ chunks ++ infos) job.jobid = [] := by
  refine childrenOf_none fun row inside same => ?_
  obtain ⟨-, q, present, start, waits, parent⟩ := rows.maker inside
  obtain rfl : q = job :=
    List.inj_on_of_nodup_map keys.jobids present member (parent.symm.trans same)
  rw [stays, start] at waits
  rcases waits with h | h <;> cases h

theorem SplitRows.splitInto (rows : SplitRows db db' fate singles chunks infos) (keys : db.Keys)
    {q : Job} (member : q ∈ db.jobScheduler) (start : q.jstate = .S1)
    (waits : (fate q).jstate = .S2W) (once : SplitsOnce db q) :
    ∃ info count, SplitInto (childrenOf (singles ++ chunks ++ infos) q.jobid) info count := by
  obtain ⟨pairs, found, counts⟩ := rows.counted q member start waits
  obtain ⟨fd, si, capacity, single, known, countable, hsrc, hdst, hprio⟩ := once pairs found
  obtain ⟨info, count, single, parsed, length⟩ := counts fd si capacity single known countable hsrc
    hdst hprio
  have apart : childrenOf singles q.jobid = [] := by
    refine childrenOf_none fun row inside same => ?_
    obtain ⟨-, q', present, waits', -, parent⟩ := rows.single row inside
    obtain rfl : q' = q :=
      List.inj_on_of_nodup_map keys.jobids present member (parent.symm.trans same)
    cases waits.symm.trans waits'
  have shape : childrenOf (singles ++ chunks ++ infos) q.jobid =
      childrenOf chunks q.jobid ++ [info] := by
    rw [childrenOf_append, childrenOf_append, apart, single, List.nil_append]
  have chosen : info ∈ infos :=
    (mem_childrenOf.mp (single ▸ List.mem_singleton.mpr rfl : info ∈ childrenOf infos q.jobid)).1
  refine ⟨info, count, ?_⟩
  rw [shape]
  constructor
  · exact parsed
  · rw [List.length_append, List.length_singleton, Nat.cast_add, length, Nat.cast_one]
  · have others : (childrenOf chunks q.jobid).filter isInfo = [] := by
      refine List.filter_eq_nil_iff.mpr fun row inside => ?_
      simp [(rows.chunk row (mem_childrenOf.mp inside).1).1.2]
    rw [List.filter_append, others, List.nil_append, List.filter_singleton,
      (rows.info info chosen).1.2]
    rfl
  · intro child inside
    have ready : child.jstate = .S4 := by
      rcases List.mem_append.mp inside with chunk | last
      · exact (rows.chunk child (mem_childrenOf.mp chunk).1).1.1
      · rw [List.mem_singleton.mp last]
        exact (rows.info info chosen).1.1
    exact ready ▸ fixed_s4

end Rows

theorem family_splitJobs (family : Family root db) (once : CutsOnce db)
    (done : splitJobs env db = .ok db') : Family root db' := by
  obtain ⟨fate, singles, chunks, infos, rows, -⟩ := splitJobs_rows family.keys family.settled done
  have keys : db'.Keys := (splitJobs_ok (w := ⟨true, true⟩) rfl done).1.1 family.keys
  have parents (job : Job) : (fate job).jparentJobid = job.jparentJobid :=
    (rows.kept job).jparentJobid
  have ids : db'.jobids = db.jobids ++ (singles ++ chunks ++ infos).map Job.jobid := by
    rw [Db.jobids, rows.rows, List.map_append, List.map_map, Db.jobids]
    congr 1
    exact List.map_congr_left fun job _ => (rows.kept job).jobid
  have apart (row : Job) (member : row ∈ singles ++ chunks ++ infos) : row.jobid ∉ db.jobids := by
    intro known
    have nodup := keys.jobids
    rw [ids] at nodup
    exact (List.nodup_append.mp nodup).2.2 _ known _ (List.mem_map_of_mem member) rfl
  -- the children of a job that was there
  have children (job : Job) : childrenOf db'.jobScheduler job.jobid =
      (childrenOf db.jobScheduler job.jobid).map fate ++
        childrenOf (singles ++ chunks ++ infos) job.jobid := by
    rw [rows.rows, childrenOf_append, childrenOf_map parents]
  constructor
  · exact keys
  · rw [ids]
    exact List.mem_append_left _ family.rooted
  · intro job member top
    rw [rows.rows] at member
    rcases List.mem_append.mp member with old | new
    · obtain ⟨q, inside, rfl⟩ := List.mem_map.mp old
      have settled := family.rootState q inside ((rows.kept q).jobid ▸ top)
      cases rows.fates q inside with
      | same stays => rwa [stays]
      | split state _ _ => exact absurd (state ▸ settled) (by decide)
      | single state _ => exact absurd (state ▸ settled) (by decide)
    · exact absurd family.rooted (top ▸ apart job new)
  · intro job member same
    rw [rows.rows] at member
    rcases List.mem_append.mp member with old | new
    · obtain ⟨q, inside, rfl⟩ := List.mem_map.mp old
      rw [(rows.kept q).jobid, parents] at same
      exact (rows.kept q).jobid.trans (family.self q inside same)
    · obtain ⟨-, q, present, -, -, parent⟩ := rows.maker new
      have known : q.jobid ∈ db.jobids := List.mem_map_of_mem present
      rw [← parent, same] at known
      exact absurd known (apart job new)
  · intro job member early
    rw [rows.rows] at member
    rcases List.mem_append.mp member with old | new
    · obtain ⟨q, inside, rfl⟩ := List.mem_map.mp old
      cases rows.fates q inside with
      | same stays =>
          rw [stays] at early
          obtain ⟨top, empty⟩ := family.early q inside early
          rw [parents, (rows.kept q).jobid, children, empty, rows.none family.keys inside stays]
          exact ⟨top, rfl⟩
      | split _ _ moved => exact absurd early (by rw [moved]; exact (by decide : ¬ Early .S2W))
      | single _ moved => exact absurd early (by rw [moved]; exact (by decide : ¬ Early .S3W))
    · exact absurd ((rows.maker new).1 ▸ early) (by decide)
  · intro job member waits
    rw [rows.rows] at member
    rcases List.mem_append.mp member with old | new
    · obtain ⟨q, inside, rfl⟩ := List.mem_map.mp old
      rw [(rows.kept q).jobid, children]
      cases rows.fates q inside with
      | same stays =>
          rw [stays] at waits
          obtain ⟨info, count, split⟩ := family.waiting q inside waits
          have unmoved : (childrenOf db.jobScheduler q.jobid).map fate =
              childrenOf db.jobScheduler q.jobid := by
            refine (List.map_congr_left fun child present => ?_).trans (List.map_id _)
            exact (rows.fates child (mem_childrenOf.mp present).1).fixed (split.fixed child present)
          rw [unmoved, rows.none family.keys inside stays, List.append_nil]
          exact ⟨info, count, split⟩
      | split state long _ =>
          obtain ⟨-, empty⟩ := family.early q inside (by rw [state]; decide)
          rw [empty, List.map_nil, List.nil_append]
          exact rows.splitInto family.keys inside state waits (once q inside state long)
      | single _ moved => cases waits.symm.trans (congrArg Job.jstate moved)
    · cases waits.symm.trans (rows.maker new).1
  · intro job member
    rw [rows.rows] at member
    rcases List.mem_append.mp member with old | new
    · obtain ⟨q, inside, rfl⟩ := List.mem_map.mp old
      cases rows.fates q inside with
      | same stays =>
          rw [stays]
          exact family.settled q inside
      | split _ _ moved =>
          rw [moved]
          exact (by decide : ¬ Transient .S2W)
      | single _ moved =>
          rw [moved]
          exact (by decide : ¬ Transient .S3W)
    · rw [(rows.maker new).1]
      decide

theorem family_promote (family : Family root db) (done : promote env db = .ok db') :
    Family root db' := by
  obtain ⟨evolves, -⟩ := promote_ok (w := ⟨true, false⟩) rfl done
  refine family.evolves rfl evolves fun job row => ?_
  obtain ⟨i, si, -, js, member, state, made⟩ := row
  obtain ⟨-, state', -, parent, -⟩ := consensusJob_row made
  rw [state', parent]
  exact ⟨(family.early js member (by rw [state]; decide)).1, fixed_s5, by decide, by decide⟩

theorem family_finish (digit : String) (family : Family root db) :
    Family root (finishPending digit db) :=
  family.evolves rfl (evolves_finishPending digit db : Evolves quiet (fun _ => False) _ _) nofun

theorem family_same (family : Family root db) (same : db'.jobScheduler = db.jobScheduler) :
    Family root db' :=
  family.map (same.trans (List.map_id _).symm) (fun _ => ⟨rfl, rfl⟩) (fun _ => rfl)
    fun job _ => .refl job.jstate

theorem family_answerRequests (family : Family root db) (done : answerRequests env db = .ok db') :
    Family root db' := by
  rcases answerRequests_ok done with ⟨-, rfl⟩ | ⟨request, r, reply, u, v, one, -, written, made,
    inserted, rfl⟩
  · exact family_finish "4" family
  · have pending : request ∈ pending "4" db := one ▸ List.mem_singleton.mpr rfl
    obtain ⟨member, test⟩ := List.mem_filter.mp pending
    simp only [Bool.and_eq_true, decide_eq_true_eq] at test
    have middle : Family root u := family_same family (upsertSysinfo_frame written).jobScheduler
    obtain ⟨-, state, -, parent, -⟩ := consensusJob_row made
    refine family_finish "4" (middle.append (keys_insertJob inserted middle.keys)
      (insertJob_ok inserted).1 fun job single => ?_)
    rw [List.mem_singleton.mp single, state, parent]
    exact ⟨(family.early request member (by rw [test.1]; decide)).1, by decide, by decide⟩

theorem family_takeReplies (family : Family root db) (done : takeReplies db = .ok db') :
    Family root db' := by
  obtain ⟨u, applied, rfl⟩ := takeReplies_ok done
  exact family_finish "5" (family_same family (applyReplies_frame applied).jobScheduler)

def beforeSplit (env : Env) (db : Db) : Sql Db := do
  let db ← promote env db
  let db ← answerRequests env db
  takeReplies db

theorem runJobs_split (env : Env) (db : Db) :
    runJobs env db = beforeSplit env db >>= fun u => splitJobs env u >>= manageConns := by
  simp only [runJobs, beforeSplit, bind_assoc]

theorem family_runJobs (family : Family root db)
    (once : ∀ u, beforeSplit env db = .ok u → CutsOnce u) (done : runJobs env db = .ok db') :
    Family root db' := by
  rw [runJobs_split] at done
  obtain ⟨u, before, rest⟩ := bind_ok.mp done
  obtain ⟨v, split, managed⟩ := bind_ok.mp rest
  have cuts := once u before
  obtain ⟨a, promoted, before⟩ := bind_ok.mp before
  obtain ⟨b, answered, replied⟩ := bind_ok.mp before
  have first := family_takeReplies (family_answerRequests (family_promote family promoted) answered)
    replied
  exact family_same (family_splitJobs first cuts split) (manageConns_frame managed).jobScheduler

theorem evolves_rest (done : runJobs env db = .ok db') :
    ∃ u, completeSplit (receive db) = .ok u ∧ Evolves ⟨false, true⟩ IsNewRow u db' := by
  obtain ⟨a, promoted, rest⟩ := bind_ok.mp done
  obtain ⟨u, split, evolves, -⟩ := promote_cases (w := ⟨false, true⟩) promoted
  have first := evolves.mono fun _ => IsRequestRow.new
  exact ⟨u, split, first.trans (fun _ => IsNewRow.fixed) (evolves_afterPromote rfl rest)⟩

theorem stuck_s2w {w : Scope} (off : w.completes = false) (t : JState) : ¬ Promote w .S2W t := by
  intro step
  cases step with
  | completeSplit h => exact absurd h (by simp [off])

/-- One pass completes a job in S-2W exactly if its children are in C. -/
theorem completes_pass (family : Family root db) (done : runJobs env db = .ok db') {p : Job}
    (member : p ∈ db.jobScheduler) (waits : p.jstate = .S2W) :
    { p with jstate := .C } ∈ db'.jobScheduler ↔
      ∀ child ∈ db.jobScheduler, child.jparentJobid = p.jobid → child.jstate = .C := by
  obtain ⟨u, completed, rest⟩ := evolves_rest done
  obtain ⟨⟨keys, change, fresh, kept, rows, none⟩, -⟩ :
      Evolves quiet (fun _ => False) db (receive db) ∧ _ := receive_ok db
  obtain rfl : fresh = [] := List.eq_nil_iff_forall_not_mem.mpr fun job inside => none job inside
  rw [List.append_nil] at rows
  obtain ⟨info, count, split⟩ := family.waiting p member waits
  -- neither the parent nor its children move before the statement
  have stays : change p = p := (kept p).stays fun t => waits ▸ stuck_s2w rfl t
  have children : childrenOf (receive db).jobScheduler p.jobid =
      childrenOf db.jobScheduler p.jobid := by
    rw [rows, childrenOf_map fun job => (kept job).jparentJobid]
    refine (List.map_congr_left fun child inside => ?_).trans (List.map_id _)
    exact (kept child).fixed (split.fixed child inside)
  have there : p ∈ (receive db).jobScheduler := rows ▸ List.mem_map.mpr ⟨p, member, stays⟩
  have counted : (∀ child ∈ db.jobScheduler, child.jparentJobid = p.jobid → child.jstate = .C) ↔
      ∀ child ∈ childrenOf (receive db).jobScheduler p.jobid, child.jstate = .C := by
    simp only [children, mem_childrenOf, and_imp]
  rcases completeSplit_ok completed with ⟨idle, -⟩ | ⟨parents, found, rfl⟩
  · exact absurd waits (idle p there)
  rw [counted, ← completes_iff (children ▸ split) found]
  obtain ⟨keys', change', fresh', kept', rows', -⟩ := rest
  constructor
  · intro moved
    by_contra absent
    have same : p ∈ ((receive db).updateJobs (fun job => job.jstate = .S2W && job.jobid ∈ parents)
        fun job => { job with jstate := .C }).jobScheduler :=
      List.mem_map.mpr ⟨p, there, by simp [absent]⟩
    have kept : p ∈ db'.jobScheduler := by
      rw [rows']
      refine List.mem_append_left _ (List.mem_map.mpr ⟨p, same, ?_⟩)
      exact (kept' p).stays fun t => waits ▸ stuck_s2w rfl t
    have unique : p = { p with jstate := .C } := by
      refine List.inj_on_of_nodup_map (keys' ?_).jobids kept moved rfl
      exact keys_map rfl (fun job => by split <;> exact ⟨rfl, rfl⟩) (keys family.keys)
    cases waits.symm.trans (congrArg Job.jstate unique)
  · intro listed
    rw [rows']
    refine List.mem_append_left _ (List.mem_map.mpr ⟨{ p with jstate := .C }, ?_, ?_⟩)
    · exact List.mem_map.mpr ⟨p, there, by simp [waits, listed]⟩
    · exact (kept' _).fixed fixed_c

end Statements

section Operations

variable {root : Uuid} {db db' : Db}

theorem family_insertUnderRoot {make : Job → Job} (family : Family root db)
    (parent : ∀ top, (make top).jparentJobid = top.jobid)
    (other : ∀ top, (make top).jstate ≠ .S2W ∧ ¬ Transient (make top).jstate)
    (done : db.insertUnderRoot make = .ok db') : Family root db' := by
  obtain ⟨top, member, self, inserted⟩ := insertUnderRoot_ok done
  refine family.append (keys_insertJob inserted family.keys) (insertJob_ok inserted).1
    fun job single => ?_
  rw [List.mem_singleton.mp single, parent]
  exact ⟨family.self top member self, other top⟩

def Cuts (db : Db) : Operation → Prop
  | .runJobs env => ∀ u, beforeSplit env db = .ok u → CutsOnce u
  | _ => True

theorem family_update {condition : Job → Bool} {change : Job → Job} (family : Family root db)
    (kept : ∀ job, OnlyState job (change job))
    (calm : ∀ job ∈ db.jobScheduler, condition job = true →
      Calm job.jstate (change job).jstate) : Family root (db.updateJobs condition change) := by
  have each (job : Job) : OnlyState job (if condition job then change job else job) := by
    split
    · exact kept job
    · exact ⟨rfl, rfl, rfl⟩
  refine family.map rfl (fun job => ⟨(each job).jobid, (each job).jparentJobid⟩)
    (fun job => (each job).jobdata) fun job member => ?_
  split
  · next holds => exact calm job member holds
  · exact .refl job.jstate

theorem family_perform {op : Operation} (family : Family root db) (cuts : Cuts db op)
    (step : db.perform op = some db') : Family root db' := by
  -- a statement that raises changes nothing
  have attempt {done : Sql Db} (keeps : ∀ u, done = .ok u → Family root u) :
      Family root (db.attempt done) := by
    rcases Db.attempt_cases db done with same | ⟨u, ok, same⟩
    · rwa [same]
    · rw [same]
      exact keeps u ok
  cases op with
  | runJobs env =>
      obtain rfl := Option.some.inj step
      exact attempt fun u done => family_runJobs family cuts done
  | importFile file =>
      obtain rfl := Option.some.inj step
      refine attempt fun u done => family_same family ?_
      rw [importFile_ok done]
  | sendFile id fileName destination =>
      obtain rfl := Option.some.inj step
      refine attempt fun u done => ?_
      unfold Db.sendFile at done
      split at done
      · obtain ⟨jobdata, -, rest⟩ := bind_ok.mp done
        exact family_insertUnderRoot family (fun _ => rfl)
          (fun _ => (by decide : JState.S ≠ .S2W ∧ ¬ Transient .S)) rest
      · exact pure_ok.mp done ▸ family
  | updateJobPriority id priority =>
      obtain rfl := Option.some.inj step
      exact family_update family (fun _ => ⟨rfl, rfl, rfl⟩) fun job _ _ => .refl job.jstate
  | storeData id fd data =>
      obtain rfl := Option.some.inj step
      refine attempt fun u done => ?_
      exact family_insertUnderRoot family (fun _ => rfl)
        (fun _ => (by decide : JState.N1 ≠ .S2W ∧ ¬ Transient .N1)) done
  | retrieve sc job =>
      obtain ⟨listed, last⟩ : (sc, job) ∈ db.sGetInfo ∧ some (db.appendW job.jobid) = some db' := by
        simpa [Db.perform] using step
      obtain rfl := Option.some.inj last
      obtain ⟨-, member, state, -⟩ := Db.mem_sGetInfo.mp listed
      refine family_update family (fun _ => ⟨rfl, rfl, rfl⟩) fun other inside same => ?_
      obtain rfl : other = job := List.inj_on_of_nodup_map family.keys.jobids inside member
        (by simpa using same)
      rw [state]
      exact .final (by decide : Settled .S4W) fixed_s4w
  | updateStatus id status =>
      obtain rfl := Option.some.inj step
      refine family_update family (fun _ => ⟨rfl, rfl, rfl⟩) fun job _ _ => ?_
      dsimp only
      split
      · exact .final (by decide) fixed_c
      · exact .final (by decide) fixed_d
  | updateConns ipaddress fd status =>
      obtain rfl := Option.some.inj step
      exact family_same family rfl
  | updateComms scommid =>
      obtain rfl := Option.some.inj step
      exact family_same family rfl
  | deleteComms scommid =>
      obtain rfl := Option.some.inj step
      exact family_same family rfl
  | getcomms rcomid =>
      obtain ⟨row, -, -, rfl⟩ := Db.perform_getcomms step
      exact family_same family rfl
  | insertConns fd ipaddr status =>
      obtain rfl := Option.some.inj step
      obtain ⟨rows, same⟩ := Db.rInsertConns_frame db fd ipaddr status
      exact family_same family (by rw [same])

def startDb (root : Uuid) (own : SelfInfo) (known : List SysInfo) : Db :=
  { Db.installed root own with sysinfo := known }

theorem family_start (root : Uuid) (own : SelfInfo) (known : List SysInfo) :
    Family root (startDb root own known) := by
  have only {job : Job} (member : job ∈ (startDb root own known).jobScheduler) :
      job.jobid = root ∧ job.jparentJobid = root ∧ job.jstate = .N0 := by
    rw [List.mem_singleton.mp member]
    exact ⟨rfl, rfl, rfl⟩
  constructor
  · exact ⟨List.nodup_singleton _, fun job member => (only member).2.1 ▸ List.mem_singleton.mpr rfl⟩
  · exact List.mem_singleton.mpr rfl
  · intro job member _
    rw [(only member).2.2]
    decide
  · exact fun job member _ => (only member).1
  · intro job member early
    exact absurd early (by rw [(only member).2.2]; decide)
  · intro job member waits
    cases (only member).2.2.symm.trans waits
  · intro job member
    rw [(only member).2.2]
    decide

/-- In every run whose passes cut each job once, a pass completes a job in S-2W exactly if
all its children are in C. -/
theorem completes_iff_children {root : Uuid} {own : SelfInfo} {known : List SysInfo}
    {ops : List Operation} {db db' : Db} {env : Env} {p : Job}
    (reached : run Db.perform (startDb root own known) ops = some db)
    (guarded : Guarded Db.perform Cuts (startDb root own known) ops)
    (done : runJobs env db = .ok db') (member : p ∈ db.jobScheduler) (waits : p.jstate = .S2W) :
    { p with jstate := .C } ∈ db'.jobScheduler ↔
      ∀ child ∈ db.jobScheduler, child.jparentJobid = p.jobid → child.jstate = .C := by
  have family : Family root db :=
    guarded_run_keeps (fun _ _ _ kept allowed step => family_perform kept allowed step)
      (family_start root own known) guarded reached
  exact completes_pass family done member waits

end Operations

section Decide

instance (t : Text) : Decidable (FiveBytes t) :=
  match h : byteain (lpad t 5) with
  | .ok field => decidable_of_iff (field.length = 5) (by simp [FiveBytes, h])
  | .error e => .isTrue (by simp [FiveBytes, h])

instance (length capacity : Int) : Decidable (Countable length capacity) :=
  inferInstanceAs (Decidable (_ ∨ _))

instance (db : Db) (js : Job) : Decidable (SplitsOnce db js) :=
  match h : namesakes db js with
  | .error e => .isTrue (by simp [SplitsOnce, h])
  | .ok [(fd, ⟨name, ipaddress, dataport, comssport, some capacity⟩)] =>
      decidable_of_iff (Countable fd.fileData.length capacity ∧ FiveBytes (btrim js.jsource) ∧
        FiveBytes (btrim js.jdestination) ∧ FiveBytes js.jpriority) (by simp [SplitsOnce, h])
  | .ok [(fd, ⟨name, ipaddress, dataport, comssport, none⟩)] =>
      .isFalse (by simp [SplitsOnce, h])
  | .ok [] => .isFalse (by simp [SplitsOnce, h])
  | .ok (_ :: _ :: _) => .isFalse (by simp [SplitsOnce, h])

instance (db : Db) : Decidable (CutsOnce db) := inferInstanceAs (Decidable (∀ _ ∈ _, _))

instance (db : Db) (op : Operation) : Decidable (Cuts db op) :=
  match op with
  | .runJobs env =>
      match h : beforeSplit env db with
      | .ok u => decidable_of_iff (CutsOnce u) (by simp [Cuts, h])
      | .error e => .isTrue (by simp [Cuts, h])
  | .importFile _ => .isTrue trivial
  | .sendFile _ _ _ => .isTrue trivial
  | .updateJobPriority _ _ => .isTrue trivial
  | .storeData _ _ _ => .isTrue trivial
  | .retrieve _ _ => .isTrue trivial
  | .updateStatus _ _ => .isTrue trivial
  | .updateConns _ _ _ => .isTrue trivial
  | .updateComms _ => .isTrue trivial
  | .deleteComms _ => .isTrue trivial
  | .getcomms _ => .isTrue trivial
  | .insertConns _ _ _ => .isTrue trivial

end Decide

section Samples

def deliver (db : Db) (ids : List Uuid) : List Operation :=
  ids.flatMap fun id => match db.sGetInfo.find? fun row => row.2.jobid = id with
    | some (sc, job) => [.retrieve sc job, .updateStatus id 1]
    | none => []

def sampleStart (known : List SysInfo) : Db :=
  startDb (Uuid.ofNat 0) ⟨ascii "   M3", 2130706433, 6001, 32768⟩ known

def delivery (known : List SysInfo) (ids : List Uuid) : List Operation :=
  let ops := [.importFile ⟨ascii "f", List.replicate 10 7⟩,
    .sendFile (Uuid.ofNat 1) (ascii "f") (ascii "M1"), .runJobs sampleEnv,
    .updateConns 16843009 5 2]
  ops ++ deliver ((run Db.perform (sampleStart known) ops).getD (sampleStart known)) ids

def m1At (ipaddress : Int) : SysInfo := ⟨ascii "   M1", ipaddress, some 6101, 7000, some 180⟩

def sentFile : Job :=
  ⟨Uuid.ofNat 1, ascii "f", .S2W, typeField "6", ascii "   M3", Uuid.ofNat 0, ascii "   M1",
    ascii "5"⟩

def passRows (known : List SysInfo) (ids : List Uuid) : Option (List Job × List Job) :=
  (run Db.perform (sampleStart known) (delivery known ids)).bind fun db =>
    (runJobs sampleEnv db).toOption.map fun db' => (db.jobScheduler, db'.jobScheduler)

theorem passRows_some (known : List SysInfo) (ids : List Uuid) (test : List Job → List Job → Bool)
    (holds : (passRows known ids).map (fun rows => test rows.1 rows.2) = some true) :
    ∃ db db', run Db.perform (sampleStart known) (delivery known ids) = some db ∧
      runJobs sampleEnv db = .ok db' ∧ test db.jobScheduler db'.jobScheduler = true := by
  obtain ⟨rows, pass, good⟩ := Option.map_eq_some_iff.mp holds
  obtain ⟨db, reached, last⟩ := Option.bind_eq_some_iff.mp pass
  obtain ⟨db', done, rfl⟩ := Option.map_eq_some_iff.mp last
  exact ⟨db, db', reached, toOption_some done, good⟩

theorem completes_delivered_file :
    ∃ db db', run Db.perform (sampleStart [m1At 16843009])
        (delivery [m1At 16843009] [Uuid.ofNat 400, Uuid.ofNat 401, Uuid.ofNat 500]) = some db ∧
      runJobs sampleEnv db = .ok db' ∧ { sentFile with jstate := .C } ∈ db'.jobScheduler := by
  obtain ⟨db, db', reached, done, holds⟩ := passRows_some [m1At 16843009]
    [Uuid.ofNat 400, Uuid.ofNat 401, Uuid.ofNat 500]
    (fun rows _ => decide (sentFile ∈ rows) &&
      decide (∀ child ∈ rows, child.jparentJobid = sentFile.jobid → child.jstate = .C))
    (by decide +kernel)
  simp only [Bool.and_eq_true, decide_eq_true_eq] at holds
  exact ⟨db, db', reached, done, (completes_iff_children reached (by decide +kernel) done holds.1
    rfl).mpr holds.2⟩

/-- M1 has two rows: six messages are made, and the parent is in C when three are. -/
theorem completes_half_delivered_file :
    ∃ db db' child, run Db.perform (sampleStart [m1At 16843009, m1At 16843010])
        (delivery [m1At 16843009, m1At 16843010]
          [Uuid.ofNat 400, Uuid.ofNat 401, Uuid.ofNat 402]) = some db ∧
      runJobs sampleEnv db = .ok db' ∧ sentFile ∈ db.jobScheduler ∧ sentFile.jstate = .S2W ∧
      { sentFile with jstate := .C } ∈ db'.jobScheduler ∧ child ∈ db.jobScheduler ∧
      child.jparentJobid = sentFile.jobid ∧ child.jstate = .S4 := by
  obtain ⟨db, db', reached, done, holds⟩ := passRows_some
    [m1At 16843009, m1At 16843010] [Uuid.ofNat 400, Uuid.ofNat 401, Uuid.ofNat 402]
    (fun rows rows' => decide (sentFile ∈ rows) &&
      decide ({ sentFile with jstate := .C } ∈ rows') &&
      rows.any fun child => child.jparentJobid = sentFile.jobid && child.jstate = .S4)
    (by decide +kernel)
  simp only [Bool.and_eq_true, decide_eq_true_eq, List.any_eq_true] at holds
  obtain ⟨⟨before, after⟩, child, member, parent, state⟩ := holds
  exact ⟨db, db', child, reached, done, before, rfl, after, member, parent, state⟩

end Samples

end Completion

end FileSharing
