import FileSharing.Database.Tree

/-! The states that a pass leaves as they are. -/

namespace FileSharing

open Library RunJobs Completion

namespace Repetition

/-- Two states of the same tables; the sequences are not tables. -/
structure SameTables (db db' : Db) : Prop where
  jobScheduler : db'.jobScheduler = db.jobScheduler
  sysinfo : db'.sysinfo = db.sysinfo
  selfinfo : db'.selfinfo = db.selfinfo
  files : db'.files = db.files
  receiversComms : db'.receiversComms = db.receiversComms
  receivingConns : db'.receivingConns = db.receivingConns
  sendingConns : db'.sendingConns = db.sendingConns
  sendersComms : db'.sendersComms = db.sendersComms

/-- The children of a job make the subquery of `completeSplit` have their parent. -/
def Counts (children : List Job) : Prop :=
  ∃ js1 ∈ children, isInfo js1 = true ∧ (children.filter fun job => job.jstate = .C).length ≠ 0 ∧
    ∃ chunks, chunkCount js1.jobdata = .ok chunks ∧
      chunks + 1 = (((children.filter fun job => job.jobdata = js1.jobdata).length *
        (children.filter fun job => job.jstate = .C).length : Nat) : Int)

/-- The `INSERT INTO senders_comms` of this row does nothing. -/
def Covered (db : Db) (row : Int × Option Int) : Prop :=
  ∃ mdata2, row.2 = some mdata2 ∧
    (db.sendersComms.any fun sm => sm.mdata1 = row.1 && sm.mdata2 = mdata2) = true

structure Idle (db : Db) : Prop where
  received : ∀ job ∈ db.jobScheduler, ¬ Incoming job.jstate
  splits : ∀ job ∈ db.jobScheduler, job.jstate = .S2W →
    ¬ Counts (childrenOf db.jobScheduler job.jobid)
  singles : ∀ job ∈ db.jobScheduler, job.jstate = .S3W →
    ∀ child ∈ childrenOf db.jobScheduler job.jobid, child.jstate ≠ .C
  started : ∀ job ∈ db.jobScheduler, job.jstate = .S → knownName db job.jdestination = false
  requests : pending "4" db = []
  replies : pending "5" db = []
  measured : ∀ job ∈ db.jobScheduler, job.jstate = .S1 →
    RunJobs.measured db (fun l r => l > r) job = .ok false ∧
      RunJobs.measured db (fun l r => l ≤ r) job = .ok false
  calm : ∀ job ∈ db.jobScheduler, ¬ Transient job.jstate
  registered : ∀ si ∈ db.sysinfo, hasReadyJob db si = true →
    (db.sendingConns.any fun sc => sc.sipaddr = si.ipaddress) = true
  opened : ∀ row ∈ openRows db, Covered db row
  closed : ∀ row ∈ closeRows db, Covered db row

section Statements

variable {env : Env} {db db' : Db}

theorem updateJobs_none {condition : Job → Bool} (change : Job → Job)
    (none : ∀ job ∈ db.jobScheduler, condition job = false) :
    db.updateJobs condition change = db := by
  have rows : (db.jobScheduler.map fun job => if condition job then change job else job) =
      db.jobScheduler := by
    refine (List.map_congr_left fun job member => ?_).trans (List.map_id _)
    simp [none job member]
  have count : (db.jobScheduler.filter fun job =>
      condition job && (change job).jstate = .S4) = [] := by
    refine List.filter_eq_nil_iff.mpr fun job member => ?_
    simp [none job member]
  rw [Db.updateJobs, rows, count]
  rfl

theorem updateJobsM_none {condition : Job → Sql Bool} (change : Job → Job)
    (none : ∀ job ∈ db.jobScheduler, condition job = .ok false) :
    db.updateJobsM condition change = .ok db := by
  have chosen : (db.jobScheduler.mapM fun job => return (job, ← condition job)) =
      .ok (db.jobScheduler.map fun job => (job, false)) := by
    apply mapM_of_map
    rw [List.map_map]
    refine List.map_congr_left fun job member => ?_
    simp [none job member, bind, Except.bind, pure, Except.pure]
  unfold Db.updateJobsM
  rw [chosen]
  simp [bind, Except.bind, pure, Except.pure, List.filter_map, Function.comp_def]

theorem receive_none (received : ∀ job ∈ db.jobScheduler, ¬ Incoming job.jstate) :
    receive db = db := by
  have other {s : JState} (incoming : Incoming s) (test : Job → Bool) :
      ∀ job ∈ db.jobScheduler, (decide (job.jstate = s) && test job) = false := by
    intro job member
    have state : job.jstate ≠ s := fun same => received job member (same ▸ incoming)
    simp [state]
  have hashed : checkHash db = db := by
    unfold checkHash
    rw [updateJobs_none _ (other (.inl rfl) _), updateJobs_none _ (other (.inl rfl) _)]
  have routed : route db = db := by
    unfold route
    rw [updateJobs_none _ (other (.inr (.inl rfl)) _), updateJobs_none _ (other (.inr (.inl rfl)) _)]
  rw [receive, hashed, routed, identifyType]
  apply updateJobs_none
  intro job member
  have state : job.jstate ≠ .N3 := fun same => received job member (.inr (.inr same))
  simp [state]

theorem completedParents_iff {parents : List Uuid} (done : completedParents db = .ok parents)
    (parent : Uuid) : parent ∈ parents ↔ Counts (childrenOf db.jobScheduler parent) := by
  have group (js1 : Job) (same : js1.jparentJobid = parent) : groupCount db js1 =
      ((childrenOf db.jobScheduler parent).filter fun job => job.jobdata = js1.jobdata).length *
        ((childrenOf db.jobScheduler parent).filter fun job => job.jstate = .C).length := by
    have twins : (db.jobScheduler.filter fun js =>
        js.jparentJobid = parent && js.jobdata = js1.jobdata) =
        (childrenOf db.jobScheduler parent).filter fun job => job.jobdata = js1.jobdata := by
      rw [childrenOf, List.filter_filter]
      exact List.filter_congr fun job _ => Bool.and_comm _ _
    rw [groupCount, same, completedChildren_eq, twins]
  obtain ⟨groups, built, rest⟩ := bind_ok.mp done
  rw [← pure_ok.mp rest]
  have each := mapM_ok.mp built
  simp only [bind_ok, pure_ok] at each
  constructor
  · intro listed
    obtain ⟨pair, inside, same⟩ := List.mem_map.mp listed
    obtain ⟨present, holds⟩ := List.mem_filter.mp inside
    obtain ⟨js1, found, chunks, parsed, total, sum, rfl⟩ := forall₂_mem_right each present
    obtain ⟨row, test⟩ := List.mem_filter.mp found
    simp only [Bool.and_eq_true, decide_eq_true_eq] at test holds
    dsimp only at same
    have count := completedChildren_eq db js1.jparentJobid
    refine ⟨js1, mem_childrenOf.mpr ⟨row, same⟩, decide_eq_true test.1, ?_, chunks, parsed, ?_⟩
    · rw [← same, ← count]
      exact test.2
    · rw [← group js1 same, ← holds, (int4_ok sum).1]
  · rintro ⟨js1, child, type, some, chunks, parsed, total⟩
    obtain ⟨row, same⟩ := mem_childrenOf.mp child
    have found : js1 ∈ infoMessages db := by
      refine List.mem_filter.mpr ⟨row, ?_⟩
      rw [Bool.and_eq_true, decide_eq_true_eq, decide_eq_true_eq, same, completedChildren_eq]
      exact ⟨of_decide_eq_true type, some⟩
    obtain ⟨pair, inside, chunks', parsed', sum, range, rfl⟩ := forall₂_mem_left each found
    obtain rfl := Except.ok.inj (parsed.symm.trans parsed')
    refine List.mem_map.mpr ⟨_, List.mem_filter.mpr ⟨inside, ?_⟩, same⟩
    rw [decide_eq_true_eq, (int4_ok range).1, group js1 same, total]

def Readable (data : Bytea) : Prop := ∃ chunks total, chunkCount data = .ok chunks ∧ int4 (chunks + 1) = .ok total

/-- The subquery of `completeSplit` is read without raising, or not at all. -/
def Completes (db : Db) : Prop :=
  (∀ job ∈ db.jobScheduler, job.jstate ≠ .S2W) ∨
    ∀ info ∈ infoMessages db, Readable info.jobdata

theorem completedParents_iff_readable :
    (∃ parents, completedParents db = .ok parents) ↔
      ∀ info ∈ infoMessages db, Readable info.jobdata := by
  constructor
  · rintro ⟨parents, done⟩ info member
    obtain ⟨groups, built, -⟩ := bind_ok.mp done
    obtain ⟨pair, -, made⟩ := forall₂_mem_left (mapM_ok.mp built) member
    obtain ⟨chunks, parsed, rest⟩ := bind_ok.mp made
    obtain ⟨total, sum, -⟩ := bind_ok.mp rest
    exact ⟨chunks, total, parsed, sum⟩
  · intro readable
    have each : ∀ js1 ∈ infoMessages db, ∃ group, (do
        let chunks ← chunkCount js1.jobdata
        let total ← int4 (chunks + 1)
        return (js1.jparentJobid, decide (total = groupCount db js1))) = .ok group := by
      intro info member
      obtain ⟨chunks, total, parsed, sum⟩ := readable info member
      exact ⟨_, bind_ok.mpr ⟨chunks, parsed, bind_ok.mpr ⟨total, sum, rfl⟩⟩⟩
    obtain ⟨groups, built⟩ := mapM_total each
    exact ⟨_, bind_ok.mpr ⟨groups, built, rfl⟩⟩

theorem completeSplit_none (splits : ∀ job ∈ db.jobScheduler, job.jstate = .S2W →
      ¬ Counts (childrenOf db.jobScheduler job.jobid)) :
    (Completes db → completeSplit db = .ok db) ∧
      ∀ db', completeSplit db = .ok db' → Completes db := by
  constructor
  · intro completes
    unfold completeSplit
    split
    · next waits =>
        have readable : ∀ info ∈ infoMessages db, Readable info.jobdata := by
          refine completes.resolve_left fun none => ?_
          obtain ⟨job, member, state⟩ := List.any_eq_true.mp waits
          exact none job member (of_decide_eq_true state)
        obtain ⟨parents, read⟩ := completedParents_iff_readable.mpr readable
        simp only [read, bind, Except.bind, pure, Except.pure]
        rw [updateJobs_none]
        intro job member
        by_cases state : job.jstate = .S2W
        · have absent : job.jobid ∉ parents := fun listed =>
            splits job member state ((completedParents_iff read job.jobid).mp listed)
          simp [absent]
        · simp [state]
    · rfl
  · intro db' done
    rcases completeSplit_ok done with ⟨none, -⟩ | ⟨parents, read, -⟩
    · exact .inl none
    · exact .inr (completedParents_iff_readable.mp ⟨parents, read⟩)

theorem finishPending_none {digit : String} (none : pending digit db = []) :
    finishPending digit db = db := by
  apply updateJobs_none
  intro job member
  exact Bool.eq_false_iff.mpr (List.filter_eq_nil_iff.mp none job member)

theorem Idle.completeSingle (idle : Idle db) : completeSingle db = db := by
  apply updateJobs_none
  intro job member
  by_cases state : job.jstate = .S3W
  · have none : (db.jobScheduler.any fun child =>
        child.jstate = .C && child.jparentJobid = job.jobid) = false := by
      refine List.any_eq_false.mpr fun child inside => ?_
      simp only [Bool.and_eq_true, decide_eq_true_eq]
      rintro ⟨completed, parent⟩
      exact idle.singles job member state child (mem_childrenOf.mpr ⟨inside, parent⟩) completed
    rw [none, Bool.and_false]
  · simp [state]

theorem Idle.requestConsensus (idle : Idle db) : requestConsensus env db = .ok db := by
  have none : connInfoSending db = [] := by
    refine List.eq_nil_iff_forall_not_mem.mpr fun pair member => ?_
    obtain ⟨si, row, inside⟩ := List.mem_flatMap.mp member
    obtain ⟨js, chosen, -⟩ := List.mem_map.mp inside
    obtain ⟨present, test⟩ := List.mem_filter.mp chosen
    simp only [Bool.and_eq_true, decide_eq_true_eq] at test
    have known : knownName db js.jdestination = true :=
      List.any_eq_true.mpr ⟨si, row, by simpa using test.1.1.symm⟩
    exact Bool.noConfusion (known.symm.trans (idle.started js present test.2))
  unfold RunJobs.requestConsensus
  rw [none]
  rfl

theorem Idle.startKnown (idle : Idle db) : startKnown db = db := by
  apply updateJobs_none
  intro job member
  by_cases state : job.jstate = .S
  · rw [idle.started job member state, Bool.false_and]
  · simp [state]

theorem Idle.promote (idle : Idle db) (split : completeSplit db = .ok db) :
    promote env db = .ok db := by
  have received : identifyType (route (checkHash db)) = db := receive_none idle.received
  unfold RunJobs.promote
  rw [received, split]
  simp only [bind, Except.bind, idle.completeSingle, idle.requestConsensus, idle.startKnown, pure,
    Except.pure]

theorem Idle.answerRequests (idle : Idle db) : answerRequests env db = .ok db := by
  unfold RunJobs.answerRequests
  rw [learnRequests_nil idle.requests]
  simp only [bind, Except.bind, queueReplies_nil idle.requests, finishPending_none idle.requests,
    pure, Except.pure]

theorem Idle.takeReplies (idle : Idle db) : takeReplies db = .ok db := by
  have none : cteSysinfo db = .ok [] := by
    unfold cteSysinfo
    rw [idle.replies]
    rfl
  have applied : applyReplies db = .ok db := by
    unfold applyReplies
    rw [none]
    rfl
  unfold RunJobs.takeReplies
  rw [applied]
  simp only [bind, Except.bind, finishPending_none idle.replies, pure, Except.pure]

theorem Idle.joined (idle : Idle db) {state : JState} (transient : Transient state) :
    joined db state = .ok [] := by
  have none : (db.jobScheduler.filter fun js => js.jstate = state) = [] := by
    refine List.filter_eq_nil_iff.mpr fun job member => ?_
    have other : job.jstate ≠ state := fun same => idle.calm job member (same ▸ transient)
    simp [other]
  unfold RunJobs.joined
  rw [none]
  rfl

theorem Idle.awaitChildren (idle : Idle db) : awaitChildren db = db := by
  have other {s : JState} (transient : Transient s) :
      ∀ job ∈ db.jobScheduler, (decide (job.jstate = s) && knownName db job.jdestination) = false := by
    intro job member
    have state : job.jstate ≠ s := fun same => idle.calm job member (same ▸ transient)
    simp [state]
  unfold RunJobs.awaitChildren
  rw [updateJobs_none _ (other (.inl rfl)), updateJobs_none _ (other (.inr rfl))]

theorem Idle.splitJobs (idle : Idle db) : splitJobs env db = .ok db := by
  have none (test : Int → Int → Bool) (each : ∀ job ∈ db.jobScheduler, job.jstate = .S1 →
      RunJobs.measured db test job = .ok false) : ∀ job ∈ db.jobScheduler,
      (if job.jstate = .S1 then RunJobs.measured db test job else return false) = .ok false := by
    intro job member
    split
    · next state => exact each job member state
    · rfl
  have split : startSplit db = .ok db :=
    updateJobsM_none _ (none _ fun job member state => (idle.measured job member state).1)
  have single : startSingle db = .ok db :=
    updateJobsM_none _ (none _ fun job member state => (idle.measured job member state).2)
  have singles : singleJob env db = .ok db := by
    unfold singleJob
    rw [idle.joined (.inr rfl)]
    rfl
  have chunks : chunkJobs env db = .ok db := by
    unfold chunkJobs
    rw [idle.joined (.inl rfl)]
    rfl
  have infos : infoJobs env db = .ok db := by
    unfold infoJobs
    rw [idle.joined (.inl rfl)]
    rfl
  unfold RunJobs.splitJobs
  simp only [split, single, singles, chunks, infos, bind, Except.bind, idle.awaitChildren, pure,
    Except.pure]

theorem registerConns_none (registered : ∀ si ∈ db.sysinfo, hasReadyJob db si = true →
      (db.sendingConns.any fun sc => sc.sipaddr = si.ipaddress) = true) :
    registerConns db = db := by
  have each : ∀ address ∈ ((db.sysinfo.filter (hasReadyJob db)).map SysInfo.ipaddress).dedup,
      registerConn db address = db := by
    intro address member
    obtain ⟨si, chosen, rfl⟩ := List.mem_map.mp (List.mem_dedup.mp member)
    obtain ⟨row, ready⟩ := List.mem_filter.mp chosen
    rw [registerConn, if_pos (registered si row ready)]
  unfold registerConns
  generalize ((db.sysinfo.filter (hasReadyJob db)).map SysInfo.ipaddress).dedup = addresses at each
  induction addresses with
  | nil => rfl
  | cons address rest ih =>
      rw [List.foldl_cons, each address List.mem_cons_self]
      exact ih fun other member => each other (List.mem_cons_of_mem address member)

theorem insertComms_covered (mtype : MType) {rows : List (Int × Option Int)} :
    ∀ db : Db, (∀ row ∈ rows, Covered db row) →
      ∃ n, rows.foldlM (insertComm mtype) db = .ok { db with scommidSeq := n } := by
  induction rows with
  | nil => exact fun _ _ => ⟨_, rfl⟩
  | cons row rest ih =>
      intro db covered
      obtain ⟨mdata2, known, exists_row⟩ := covered row List.mem_cons_self
      have first : insertComm mtype db row =
          .ok { db with scommidSeq := db.scommidSeq + 1 } := by
        unfold insertComm
        rw [known]
        exact if_pos exists_row
      obtain ⟨n, later⟩ := ih { db with scommidSeq := db.scommidSeq + 1 }
        fun other member => covered other (List.mem_cons_of_mem row member)
      exact ⟨n, bind_ok.mpr ⟨_, first, later⟩⟩

theorem Idle.manageConns (idle : Idle db) :
    ∃ n, manageConns db = .ok { db with scommidSeq := n } := by
  obtain ⟨m, opened⟩ := insertComms_covered .openConn db idle.opened
  obtain ⟨n, closed⟩ := insertComms_covered .closeConn { db with scommidSeq := m } idle.closed
  refine ⟨n, ?_⟩
  unfold RunJobs.manageConns
  rw [registerConns_none idle.registered]
  exact bind_ok.mpr ⟨_, opened, closed⟩

/-- A pass over an idle state changes no table, and completes exactly if its one subquery does. -/
theorem idle_pass (idle : Idle db) :
    ((∃ db', runJobs env db = .ok db' ∧ SameTables db db') ↔ Completes db) ∧
      ∀ db', runJobs env db = .ok db' → SameTables db db' := by
  have whole (completes : Completes db) : ∃ n, runJobs env db = .ok { db with scommidSeq := n } := by
    have split := (completeSplit_none idle.splits).1 completes
    obtain ⟨n, managed⟩ := idle.manageConns
    refine ⟨n, ?_⟩
    rw [← managed]
    simp only [runJobs, idle.promote split, idle.answerRequests, idle.takeReplies, idle.splitJobs,
      bind, Except.bind]
  have only (db' : Db) (done : runJobs env db = .ok db') : Completes db := by
    obtain ⟨a, promoted, -⟩ := bind_ok.mp done
    obtain ⟨u, split, -⟩ := bind_ok.mp promoted
    have received : identifyType (route (checkHash db)) = db := receive_none idle.received
    rw [received] at split
    exact (completeSplit_none idle.splits).2 u split
  have same (n : Nat) : SameTables db { db with scommidSeq := n } :=
    ⟨rfl, rfl, rfl, rfl, rfl, rfl, rfl, rfl⟩
  constructor
  · constructor
    · rintro ⟨db', done, -⟩
      exact only db' done
    · intro completes
      obtain ⟨n, done⟩ := whole completes
      exact ⟨_, done, same n⟩
  · intro db' done
    obtain ⟨n, done'⟩ := whole (only db' done)
    obtain rfl := Except.ok.inj (done.symm.trans done')
    exact same n

end Statements

end Repetition

end FileSharing
