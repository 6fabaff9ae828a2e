import FileSharing.Database.Chunks
import FileSharing.Database.Made

/-! The messages that a whole pass makes for a job that it cuts. -/

namespace FileSharing

open Library RunJobs Completion

namespace Chunks

/-- A job in S-1 whose destination has one row, with a file that does not fit in one message;
the names and the priority fit their fields. -/
structure ToCut (db : Db) (js : Job) (fd : File) (si : SysInfo) (capacity : Int) : Prop where
  member : js ∈ db.jobScheduler
  state : js.jstate = .S1
  joins : namesakes db js = .ok [(fd, si)]
  known : si.systemCapacity = some capacity
  large : 172 < capacity
  long : (fd.fileData.length : Int) > capacity - 172
  few : chunkTotal fd.fileData.length capacity ≤ 10 ^ 8
  source : (btrim js.jsource).length ≤ 5
  destination : (btrim js.jdestination).length ≤ 5
  priority : js.jpriority.length ≤ 5

/-- No field loses a byte in its cast, and no value is too large for the server. -/
def Fits (js : Job) (fd : File) (capacity : Int) : Prop :=
  Casts js ∧ capacity ≤ maxField ∧ fd.fileData.length ≤ maxField

section Pass

variable {env : Env} {root : Uuid} {db db' u : Db} {js : Job} {fd : File} {si : SysInfo}
  {capacity : Int}

theorem ToCut.measured (cut : ToCut db js fd si capacity) {holds : Bool}
    (read : RunJobs.measured db (fun l r => l > r) js = .ok holds) : holds = true := by
  obtain ⟨stored, name, present, destination⟩ :=
    Made.namesakes_mem cut.joins (List.mem_singleton.mpr rfl)
  have joins : Made.Joins db (fd, js, si) := ⟨stored, name, present, destination⟩
  have large := cut.large
  exact joins.measured read cut.known (by omega) (decide_eq_true cut.long)

theorem ToCut.waits (cut : ToCut u js fd si capacity) (done : splitJobs env u = .ok db') :
    { js with jstate := .S2W } ∈ db'.jobScheduler := by
  obtain ⟨a, split, -⟩ := bind_ok.mp done
  obtain ⟨holds, read⟩ := (updateJobsM_ok split).2.1 js cut.member
  rw [if_pos cut.state] at read
  obtain rfl := cut.measured read
  exact splitJobs_waits done cut.member cut.state read

theorem ToCut.children (cut : ToCut u js fd si capacity) (tree : Tree root u)
    (done : splitJobs env u = .ok db') :
    ∃ chunks info numbers number, childrenOf db'.jobScheduler js.jobid = chunks ++ [info] ∧
      splitJob env (fd, { js with jstate := .S2 }, si) numbers number = .ok (chunks, info) ∧
      numbers.length = chunkTotal fd.fileData.length capacity := by
  obtain ⟨fate, singles, chunks, infos, rows, cuts⟩ := splitJobs_rows tree.keys tree.settled done
  have keys : db'.Keys := (splitJobs_ok (w := ⟨true, true⟩) rfl done).1.1 tree.keys
  have moved : fate js = { js with jstate := .S2W } := by
    have kept : fate js ∈ db'.jobScheduler := by
      rw [rows.rows]
      exact List.mem_append_left _ (List.mem_map_of_mem cut.member)
    exact List.inj_on_of_nodup_map keys.jobids kept (cut.waits done) (rows.kept js).jobid
  have waits : (fate js).jstate = .S2W := by rw [moved]
  obtain ⟨pairs, found, made⟩ := cuts js cut.member cut.state waits
  obtain rfl := Except.ok.inj (found.symm.trans cut.joins)
  obtain ⟨part, numbers, number, info, cutting, enough, built, told, single⟩ := made fd si rfl
  -- nothing was under the job before
  have empty : childrenOf u.jobScheduler js.jobid = [] := by
    refine childrenOf_none fun child inside same => ?_
    have early : Early js.jstate := by
      rw [cut.state]
      decide
    have top : child.jparentJobid = root := by
      by_contra other
      exact (tree.below child inside other).2 js cut.member same.symm early
    have fixed := tree.top js cut.member (same.symm.trans top)
    exact Tree.early_not_fixed early fixed
  have apart : childrenOf singles js.jobid = [] := by
    refine childrenOf_none fun row inside same => ?_
    obtain ⟨-, q, present, waits', -, parent⟩ := rows.single row inside
    obtain rfl : q = js :=
      List.inj_on_of_nodup_map tree.keys.jobids present cut.member (parent.symm.trans same)
    cases waits.symm.trans waits'
  refine ⟨childrenOf chunks js.jobid, info, numbers, number, ?_, ?_, ?_⟩
  · rw [rows.rows, childrenOf_append, childrenOf_map fun job => (rows.kept job).jparentJobid, empty,
      List.map_nil, List.nil_append, childrenOf_append, childrenOf_append, apart, single,
      List.nil_append]
  · simp only [splitJob, cutting, built, told, bind, Except.bind, pure, Except.pure]
  · obtain ⟨count, quotient, length⟩ := (chunkInfo_ok cutting).2 capacity cut.known
    rw [ceilDiv_total cut.large] at quotient
    rw [enough, length, ← Except.ok.inj quotient, Int.toNat_natCast]

/-- The messages made for one row of the joins are those that the file needs exactly if
the row fits. -/
theorem splitJob_layout_iff (env : Env) (cut : ToCut u js fd si capacity) {numbers : List Nat}
    (number : Nat) (enough : numbers.length = chunkTotal fd.fileData.length capacity) :
    (∃ chunks info,
      splitJob env (fd, { js with jstate := .S2 }, si) numbers number = .ok (chunks, info) ∧
        Layout capacity fd.fileData js.jobid chunks info) ↔ Fits js fd capacity := by
  constructor
  · rintro ⟨chunks, info, made, layout⟩
    obtain ⟨casts, small, loaded⟩ : Casts { js with jstate := .S2 } ∧ _ :=
      casts_of_layout cut.known cut.large cut.long cut.source cut.destination cut.priority made
        layout
    exact ⟨⟨casts.source, casts.destination, casts.priority⟩, small, loaded⟩
  · rintro ⟨casts, small, loaded⟩
    have same : Casts { js with jstate := .S2 } := ⟨casts.source, casts.destination, casts.priority⟩
    exact splitJob_total cut.known cut.large cut.long cut.few enough same small loaded

/-- In every reachable state, the messages for a job that a pass cuts are those that its file
needs exactly if the job fits, and so are the rows that a completed pass leaves under it. -/
theorem messages_laid_out_iff {own : SelfInfo} {known : List SysInfo} {ops : List Operation}
    (reached : run Db.perform (startDb root own known) ops = some db)
    (before : beforeSplit env db = .ok u) (cut : ToCut u js fd si capacity) :
    (∀ numbers number, numbers.length = chunkTotal fd.fileData.length capacity →
      ((∃ chunks info,
        splitJob env (fd, { js with jstate := .S2 }, si) numbers number = .ok (chunks, info) ∧
          Layout capacity fd.fileData js.jobid chunks info) ↔ Fits js fd capacity)) ∧
    ∀ db', runJobs env db = .ok db' → ∃ chunks info,
      childrenOf db'.jobScheduler js.jobid = chunks ++ [info] ∧
        (Layout capacity fd.fileData js.jobid chunks info ↔ Fits js fd capacity) := by
  refine ⟨fun numbers number enough => splitJob_layout_iff env cut number enough, fun db' done => ?_⟩
  rw [runJobs_split] at done
  obtain ⟨u', before', rest⟩ := bind_ok.mp done
  obtain rfl := Except.ok.inj (before.symm.trans before')
  obtain ⟨v, split, managed⟩ := bind_ok.mp rest
  have tree : Tree root u := (Tree.reachable reached).beforeSplit before
  obtain ⟨chunks, info, numbers, number, rows, made, enough⟩ := cut.children tree split
  refine ⟨chunks, info, ?_, ?_⟩
  · rw [(manageConns_frame managed).jobScheduler, rows]
  · rw [← splitJob_layout_iff env cut number enough, made]
    constructor
    · exact fun layout => ⟨chunks, info, rfl, layout⟩
    · rintro ⟨chunks', info', same, layout⟩
      obtain ⟨rfl, rfl⟩ := Prod.mk.inj (Except.ok.inj same)
      exact layout

end Pass

section Samples

instance (db : Db) (js : Job) (fd : File) (si : SysInfo) (capacity : Int) :
    Decidable (ToCut db js fd si capacity) :=
  decidable_of_iff (js ∈ db.jobScheduler ∧ js.jstate = .S1 ∧ namesakes db js = .ok [(fd, si)] ∧
      si.systemCapacity = some capacity ∧ 172 < capacity ∧
      (fd.fileData.length : Int) > capacity - 172 ∧
      chunkTotal fd.fileData.length capacity ≤ 10 ^ 8 ∧ (btrim js.jsource).length ≤ 5 ∧
      (btrim js.jdestination).length ≤ 5 ∧ js.jpriority.length ≤ 5)
    ⟨fun h => ⟨h.1, h.2.1, h.2.2.1, h.2.2.2.1, h.2.2.2.2.1, h.2.2.2.2.2.1, h.2.2.2.2.2.2.1,
      h.2.2.2.2.2.2.2.1, h.2.2.2.2.2.2.2.2.1, h.2.2.2.2.2.2.2.2.2⟩,
    fun cut => ⟨cut.member, cut.state, cut.joins, cut.known, cut.large, cut.long, cut.few,
      cut.source, cut.destination, cut.priority⟩⟩

def sampleFile : File := ⟨ascii "f", List.replicate 10 7⟩

def sending (priority : Text) : List Operation :=
  [.importFile sampleFile, .sendFile (Uuid.ofNat 1) (ascii "f") (ascii "M1"),
    .updateJobPriority (Uuid.ofNat 1) priority]

def sentJob (priority : Text) : Job :=
  ⟨Uuid.ofNat 1, ascii "f", .S1, typeField "6", ascii "   M3", Uuid.ofNat 0, ascii "   M1", priority⟩

def cutStates (priority : Text) : Option (Db × Db × Db) :=
  (run Db.perform (sampleStart [m1At 16843009]) (sending priority)).bind fun db =>
    (beforeSplit sampleEnv db).toOption.bind fun u =>
      (runJobs sampleEnv db).toOption.map fun db' => (db, u, db')

theorem cutStates_some (priority : Text) (test : Db → Db → Bool)
    (holds : (cutStates priority).map (fun s => test s.2.1 s.2.2) = some true) :
    ∃ db u db', run Db.perform (sampleStart [m1At 16843009]) (sending priority) = some db ∧
      beforeSplit sampleEnv db = .ok u ∧ runJobs sampleEnv db = .ok db' ∧ test u db' = true := by
  obtain ⟨states, found, good⟩ := Option.map_eq_some_iff.mp holds
  obtain ⟨db, reached, found⟩ := Option.bind_eq_some_iff.mp found
  obtain ⟨u, before, found⟩ := Option.bind_eq_some_iff.mp found
  obtain ⟨db', done, rfl⟩ := Option.map_eq_some_iff.mp found
  exact ⟨db, u, db', reached, toOption_some before, toOption_some done, good⟩

theorem sent_file_laid_out :
    ∃ db u db' chunks info,
      run Db.perform (sampleStart [m1At 16843009]) (sending (ascii "5")) = some db ∧
      beforeSplit sampleEnv db = .ok u ∧ runJobs sampleEnv db = .ok db' ∧
      childrenOf db'.jobScheduler (Uuid.ofNat 1) = chunks ++ [info] ∧
      Layout 180 sampleFile.fileData (Uuid.ofNat 1) chunks info := by
  obtain ⟨db, u, db', reached, before, done, holds⟩ := cutStates_some (ascii "5")
    (fun u _ => decide (ToCut u (sentJob (ascii "5")) sampleFile (m1At 16843009) 180))
    (by decide +kernel)
  obtain ⟨chunks, info, rows, layout⟩ :=
    (messages_laid_out_iff reached before (of_decide_eq_true holds)).2 db' done
  exact ⟨db, u, db', chunks, info, reached, before, done, rows,
    layout.mpr ⟨⟨by decide, by decide, by decide⟩, by decide, by decide⟩⟩

/-- A priority of two backslashes takes four bytes in the messages. -/
theorem backslash_priority_shifts :
    ∃ db u db', run Db.perform (sampleStart [m1At 16843009]) (sending [92, 92]) = some db ∧
      beforeSplit sampleEnv db = .ok u ∧
      ToCut u (sentJob [92, 92]) sampleFile (m1At 16843009) 180 ∧
      runJobs sampleEnv db = .ok db' ∧
      (∃ child ∈ childrenOf db'.jobScheduler (Uuid.ofNat 1),
        messageType child.jobdata = typeField "2" ∧
        chunkParent child.jobdata ≠ (Uuid.ofNat 1).text) ∧
      ∀ chunks info, childrenOf db'.jobScheduler (Uuid.ofNat 1) = chunks ++ [info] →
        ¬ Layout 180 sampleFile.fileData (Uuid.ofNat 1) chunks info := by
  obtain ⟨db, u, db', reached, before, done, holds⟩ := cutStates_some [92, 92]
    (fun u db' => decide (ToCut u (sentJob [92, 92]) sampleFile (m1At 16843009) 180) &&
      (childrenOf db'.jobScheduler (Uuid.ofNat 1)).any fun child =>
        decide (messageType child.jobdata = typeField "2") &&
        decide (chunkParent child.jobdata ≠ (Uuid.ofNat 1).text))
    (by decide +kernel)
  simp only [Bool.and_eq_true, decide_eq_true_eq, List.any_eq_true] at holds
  obtain ⟨cut, child, member, type, other⟩ := holds
  refine ⟨db, u, db', reached, before, cut, done, ⟨child, member, type, other⟩, ?_⟩
  intro chunks info rows layout
  rcases List.mem_append.mp (rows ▸ member) with chunk | last
  · exact other (layout.parents child chunk)
  · rw [List.mem_singleton.mp last, layout.infoType] at type
    exact absurd type (by decide)

end Samples

end Chunks

end FileSharing
