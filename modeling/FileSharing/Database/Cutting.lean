import FileSharing.Database.Inserts

/-! When the statements that split raise nothing. -/

namespace FileSharing

open Library RunJobs Completion

namespace Commits

def Measurable (db : Db) (js : Job) : Prop :=
  ∀ fd ∈ db.files, ∀ si ∈ db.sysinfo, js.jdestination = si.systemName →
    fd.fileData.length ≤ maxField ∧
      ∀ c ∈ si.systemCapacity, IsInt4 (c - 172) ∧ (c ≠ 0 → Succeeds (byteain fd.fileName))

def Writes (js : Job) : Prop :=
  Castable (btrim js.jsource) ∧ Castable (btrim js.jdestination) ∧ Castable js.jpriority

def SingleSafe (row : File × Job × SysInfo) : Prop :=
  Writes row.2.1 ∧ Fits (114 - row.2.1.gap + row.1.fileData.length) row.2.2.systemCapacity

def CutSafe (row : File × Job × SysInfo) : Prop :=
  Writes row.2.1 ∧ ∃ c ∈ row.2.2.systemCapacity, c ≠ 172 ∧ c ≤ maxField

def ChunkSafe (chunk : Chunk) : Prop :=
  Writes chunk.js ∧
    Fits (114 - chunk.js.gap + 54 + chunk.chunkData.length) (some chunk.systemCapacity)

def Measured (row : File × Job × SysInfo) : Prop :=
  row.1.fileData.length ≤ maxField ∧ ∀ c ∈ row.2.2.systemCapacity, IsInt4 (c - 172)

structure MessagesSafe (env : Env) (db : Db) : Prop where
  singles : ∀ rows, joined db .S3 = .ok rows → ∀ row ∈ rows, SingleSafe row
  cuts : ∀ rows, joined db .S2 = .ok rows → ∀ row ∈ rows, CutSafe row
  ids : ∀ singles cuts parts, joined db .S3 = .ok singles → joined db .S2 = .ok cuts →
    cuts.mapM chunkInfo = .ok parts →
    Fresh db (drawn env 2 singles.length ++
      (drawn env 3 parts.flatten.length ++ drawn env 4 cuts.length))

structure SplitSafe (env : Env) (db : Db) : Prop where
  measurable : ∀ js ∈ db.jobScheduler, js.jstate = .S1 → Measurable db js
  messages : ∀ v, (startSplit db >>= startSingle) = .ok v → MessagesSafe env v

section Choice

variable {db u v : Db} {js : Job}

theorem succeeds_updateJobsM {condition : Job → Sql Bool} {change : Job → Job} :
    Succeeds (db.updateJobsM condition change) ↔
      ∀ job ∈ db.jobScheduler, Succeeds (condition job) := by
  rw [Db.updateJobsM, succeeds_return, succeeds_mapM]
  exact forall₂_congr fun job _ => succeeds_return

theorem succeeds_measured {test : Int → Int → Bool} : Succeeds (measured db test js) ↔
    ∀ fd ∈ db.files, ∀ si ∈ db.sysinfo, js.jdestination = si.systemName →
      fd.fileData.length ≤ maxField ∧ ∀ c ∈ si.systemCapacity, IsInt4 (c - 172) ∧
        (test fd.fileData.length (c - 172) = true → c ≠ 0 → Succeeds (byteain fd.fileName)) := by
  have pairs (P : File × SysInfo → Prop) : (∀ pair ∈ db.files.flatMap fun f =>
      (db.sysinfo.filter fun si => js.jdestination = si.systemName).map (f, ·), P pair) ↔
      ∀ fd ∈ db.files, ∀ si ∈ db.sysinfo, js.jdestination = si.systemName → P (fd, si) := by
    simp only [List.mem_flatMap, List.mem_map, List.mem_filter, decide_eq_true_eq]
    constructor
    · exact fun all fd file si known same => all _ ⟨fd, file, si, ⟨known, same⟩, rfl⟩
    · rintro all _ ⟨fd, file, si, ⟨known, same⟩, rfl⟩
      exact all fd file si known same
  rw [measured, succeeds_return, succeeds_mapM, pairs]
  refine forall₂_congr fun fd _ => forall₃_congr fun si _ _ => ?_
  rw [succeeds_bind, succeeds_loGet]
  refine and_congr_right fun small => ?_
  have read : loGet fd.fileData = .ok fd.fileData := if_pos small
  simp only [read, Except.ok.injEq, forall_eq']
  cases si.systemCapacity with
  | none => exact iff_of_true (succeeds_pure _) fun c member => by cases member
  | some c =>
      simp only [Option.mem_some_iff, forall_eq']
      rw [succeeds_bind, succeeds_int4]
      refine and_congr_right fun range => ?_
      have room : int4 (c - 172) = .ok (c - 172) := if_pos range
      simp only [room, Except.ok.injEq, forall_eq']
      split
      · next chosen =>
          simp only [Bool.and_eq_true, decide_eq_true_eq] at chosen
          rw [succeeds_return]
          exact ⟨fun named _ _ => named, fun named => named chosen.1 chosen.2⟩
      · next other =>
          refine iff_of_true (succeeds_pure _) fun chosen nonzero => absurd ?_ other
          simp [chosen, nonzero]

theorem succeeds_joined {state : JState} : Succeeds (joined db state) ↔
    ∀ js ∈ db.jobScheduler, js.jstate = state → ∀ fd ∈ db.files,
      Succeeds (byteain fd.fileName) := by
  have names (js : Job) : Succeeds (namesakes db js) ↔
      ∀ fd ∈ db.files, Succeeds (byteain fd.fileName) := by
    rw [namesakes, succeeds_return, succeeds_mapM]
    exact forall₂_congr fun fd _ => succeeds_return
  rw [joined, succeeds_return, succeeds_mapM]
  simp only [List.mem_filter, decide_eq_true_eq, and_imp, succeeds_return, names]

theorem succeeds_choice (calm : ∀ job ∈ u.jobScheduler, ¬ Transient job.jstate) :
    (∃ v, (startSplit u >>= startSingle) = .ok v ∧ Succeeds (joined v .S3) ∧
      Succeeds (joined v .S2)) ↔ ∀ js ∈ u.jobScheduler, js.jstate = .S1 → Measurable u js := by
  have start (test : Int → Int → Bool) (job : Job) : Succeeds (if job.jstate = .S1 then
      measured u test job else return false) ↔
      (job.jstate = .S1 → Succeeds (measured u test job)) := by
    split
    · next state => exact ⟨fun done _ => done, fun done => done state⟩
    · next state => exact iff_of_true (succeeds_pure _) fun same => absurd same state
  constructor
  · rintro ⟨v, done, third, second⟩ js member state fd file si known same
    obtain ⟨a, split, single⟩ := bind_ok.mp done
    have long := succeeds_measured.mp ((start _ js).mp
      (succeeds_updateJobsM.mp ⟨a, split⟩ js member) state) fd file si known same
    refine ⟨long.1, fun c capacity => ⟨(long.2 c capacity).1, fun nonzero => ?_⟩⟩
    have rows := middle_rows split single
    have files : v.files = u.files :=
      ((updateJobsM_ok split).1.trans (updateJobsM_ok single).1).files
    have moved : singling u (splitting u js) ∈ v.jobScheduler := by
      rw [rows]
      exact List.mem_map.mpr ⟨js, member, rfl⟩
    have outcome : (singling u (splitting u js) = js ∧ _) ∨ _ := split_cases (calm js member)
    rcases outcome with ⟨stays, -⟩ | ⟨-, -, cut, -⟩ | ⟨-, -, -, whole, -⟩
    · -- a job that is not chosen was compared by both statements
      by_cases larger : (fd.fileData.length : Int) > c - 172
      · exact (long.2 c capacity).2 (decide_eq_true larger) nonzero
      · have kept : splitting u js = js := by
          by_cases chosen : measured u (fun l r => l > r) js = .ok true
          · have first : splitting u js = { js with jstate := .S2 } := by
              simp [splitting, state, chosen]
            have other := congrArg Job.jstate stays
            simp [first, singling, state, pure, Except.pure] at other
          · simp [splitting, state, chosen]
        have inside : js ∈ a.jobScheduler := by
          rw [(updateJobsM_ok split).2.2]
          exact List.mem_map.mpr ⟨js, member, kept⟩
        have short := succeeds_updateJobsM.mp ⟨v, single⟩ js inside
        rw [measured_frame (updateJobsM_ok split).1] at short
        have compared := succeeds_measured.mp ((start _ js).mp short state) fd file si known same
        exact (compared.2 c capacity).2 (decide_eq_true (not_lt.mp larger)) nonzero
    · exact succeeds_joined.mp second _ moved (by rw [cut]) fd (files ▸ file)
    · exact succeeds_joined.mp third _ moved (by rw [whole]) fd (files ▸ file)
  · intro all
    have measures (test : Int → Int → Bool) (js : Job) (member : js ∈ u.jobScheduler)
        (state : js.jstate = .S1) : Succeeds (measured u test js) :=
      succeeds_measured.mpr fun fd file si known same =>
        have compared := all js member state fd file si known same
        ⟨compared.1, fun c capacity => ⟨(compared.2 c capacity).1, fun _ =>
          (compared.2 c capacity).2⟩⟩
    obtain ⟨a, split⟩ : Succeeds (startSplit u) := succeeds_updateJobsM.mpr fun job member =>
      (start _ job).mpr (measures _ job member)
    obtain ⟨only, -, rowsA⟩ := updateJobsM_ok split
    obtain ⟨v, single⟩ : Succeeds (startSingle a) := by
      refine succeeds_updateJobsM.mpr fun job member => ?_
      rw [measured_frame only]
      refine (start _ job).mpr fun state => ?_
      rw [rowsA] at member
      obtain ⟨js, inside, same⟩ := List.mem_map.mp member
      by_cases chosen : (if js.jstate = .S1 then measured u (fun l r => l > r) js
          else return false) = .ok true
      · rw [if_pos chosen] at same
        rw [← same] at state
        cases state
      · rw [if_neg chosen] at same
        exact measures _ job (same ▸ inside) state
    have files : v.files = u.files := (only.trans (updateJobsM_ok single).1).files
    -- a job is chosen with a row of `sysinfo` for which every name was read
    have named {test : Int → Int → Bool} {q : Job} (member : q ∈ u.jobScheduler)
        (state : q.jstate = .S1) (chosen : measured u test q = .ok true) (fd : File)
        (file : fd ∈ v.files) : Succeeds (byteain fd.fileName) := by
      obtain ⟨_, si, c, joins, capacity, nonzero, -⟩ := Made.measured_true chosen
      have compared := all q member state fd (files ▸ file) si joins.known joins.destination
      exact (compared.2 c capacity).2 nonzero
    refine ⟨v, bind_ok.mpr ⟨a, split, single⟩, succeeds_joined.mpr fun js member state => ?_,
      succeeds_joined.mpr fun js member state => ?_⟩
    · obtain ⟨q, inside, start, -, chosen, -⟩ := Made.single_origin calm split single member state
      exact named inside start chosen
    · obtain ⟨q, inside, start, chosen, -⟩ := Made.cut_origin calm split single member state
      exact named inside start chosen

end Choice

section Split

variable {env : Env} {db u v : Db} {rows : List (File × Job × SysInfo)}
  {row : File × Job × SysInfo}

theorem succeeds_message {id : Uuid} {type digit : Text} {subheader messaget : Bytea}
    {capacity : Option Int} {js : Job} (cleanType : Clean type) :
    Succeeds (createMessage env.now id.text type subheader messaget (btrim js.jsource)
      (btrim js.jdestination) js.jpriority capacity >>= fun mdata => messageJob mdata digit js) ↔
      Writes js ∧ Fits (114 - js.gap + subheader.length + messaget.length) capacity := by
  rw [succeeds_bind, succeeds_createMessage cleanType, and_iff_left]
  · constructor
    · rintro ⟨src, dst, prio, fits⟩
      exact ⟨⟨src, dst, prio⟩, fits⟩
    · rintro ⟨⟨src, dst, prio⟩, fits⟩
      exact ⟨src, dst, prio, fits⟩
  · intro mdata made
    exact ⟨_, bind_ok.mpr ⟨id, messageUuid_createMessage made, rfl⟩⟩

theorem message_row {now : Timestamp} {id : Uuid} {type source destination priority digit : Text}
    {subheader messaget mdata : Bytea} {capacity : Option Int} {js job : Job}
    (made : createMessage now id.text type subheader messaget source destination priority
      capacity = .ok mdata) (last : messageJob mdata digit js = .ok job) :
    job.jobid = id ∧ job.jstate = .S4 ∧ job.jparentJobid = js.jobid := by
  obtain ⟨read, -, state, -, -, parent, -⟩ := messageJob_ok last
  exact ⟨Except.ok.inj (read.symm.trans (messageUuid_createMessage made)), state, parent⟩

theorem succeeds_singleMessage (measured : Measured row) (i : Nat) :
    Succeeds (singleMessage env (row, i)) ↔ SingleSafe row := by
  have read : loGet row.1.fileData = .ok row.1.fileData := if_pos measured.1
  have shape : singleMessage env (row, i) = (createMessage env.now (env.uuid 2 i).text (ascii "1")
      [] row.1.fileData (btrim row.2.1.jsource) (btrim row.2.1.jdestination) row.2.1.jpriority
      row.2.2.systemCapacity >>= fun mdata => messageJob mdata (ascii "1") row.2.1) := by
    simp only [singleMessage, read]
    rfl
  rw [shape, succeeds_message (by decide)]
  exact Iff.rfl

theorem succeeds_chunkMessage {chunk : Chunk} (i : Nat) :
    Succeeds (chunkMessage env (chunk, i)) ↔ ChunkSafe chunk := by
  have type : Clean (ascii "2") := by decide
  refine (succeeds_message type).trans ?_
  simp only [List.length_append, length_lpad, chunk.js.jobid.length]
  exact Iff.rfl

theorem succeeds_infoMessage (measured : Measured row) (i : Nat) :
    Succeeds (infoMessage env (row, i)) ↔ CutSafe row := by
  have type : Clean (ascii "3") := by decide
  have read : loGet row.1.fileData = .ok row.1.fileData := if_pos measured.1
  unfold CutSafe
  cases known : row.2.2.systemCapacity with
  | none =>
      apply iff_of_false
      · rintro ⟨job, done⟩
        obtain ⟨capacity, -, -, some, -⟩ := infoMessage_ok done
        cases known.symm.trans some
      · rintro ⟨-, c, member, -⟩
        cases member
  | some c =>
      have range := measured.2 c known
      have room : int4 (c - 172) = .ok (c - 172) := if_pos range
      have gap := headerGap_le (btrim row.2.1.jsource) (btrim row.2.1.jdestination)
        row.2.1.jpriority
      simp only [Option.mem_some_iff, exists_eq_left']
      by_cases zero : c = 172
      · apply iff_of_false
        · rintro ⟨job, done⟩
          obtain ⟨capacity, count, -, some, quotient, -⟩ := infoMessage_ok done
          obtain rfl := Option.some.inj (known.symm.trans some)
          exact (ceilDiv_ok quotient).1 (by omega)
        · exact fun safe => safe.2.1 zero
      · have quotient : ceilDiv row.1.fileData.length (c - 172) =
            .ok (-(Int.fdiv (-row.1.fileData.length) (c - 172))) := if_neg (by omega)
        have shape : infoMessage env (row, i) = (createMessage env.now (env.uuid 4 i).text
            (ascii "3") (row.2.1.jobid.text ++ lpad (natText row.1.fileData.length) 12 ++
              lpad (intText (-(Int.fdiv (-row.1.fileData.length) (c - 172)))) 10) []
            (btrim row.2.1.jsource) (btrim row.2.1.jdestination) row.2.1.jpriority (some c) >>=
            fun mdata => messageJob mdata (ascii "3") row.2.1) := by
          simp only [infoMessage, read, known, room, quotient, bind, Except.bind]
        rw [shape, succeeds_message type]
        simp only [List.length_append, length_lpad, row.2.1.jobid.length, List.length_nil]
        refine and_congr_right fun _ => ?_
        change (max _ c.toNat ≤ 1073741819 ∧ ∀ c' ∈ some c, _) ↔ _ ∧ c ≤ 1073741819
        unfold IsInt4 int4Min int4Max at range ⊢
        unfold Job.gap
        simp only [Option.mem_some_iff, forall_eq']
        omega

theorem succeeds_chunkInfo (measured : Measured row) (safe : CutSafe row) :
    Succeeds (chunkInfo row) := by
  obtain ⟨-, c, known, nonzero, -⟩ := safe
  have read : loGet row.1.fileData = .ok row.1.fileData := if_pos measured.1
  have room : int4 (c - 172) = .ok (c - 172) := if_pos (measured.2 c known)
  have quotient : ceilDiv row.1.fileData.length (c - 172) =
      .ok (-(Int.fdiv (-row.1.fileData.length) (c - 172))) := if_neg (by omega)
  rw [Option.mem_def] at known
  simp only [chunkInfo, read, known, room, quotient, bind, Except.bind]
  refine succeeds_mapM.mpr fun idx _ => succeeds_return.mpr (succeeds_loGet.mpr ?_)
  rw [List.length_take, List.length_drop]
  have small := measured.1
  omega

theorem chunkSafe_of_cut (safe : CutSafe row) {part : List Chunk} (done : chunkInfo row = .ok part)
    {chunk : Chunk} (member : chunk ∈ part) : ChunkSafe chunk := by
  obtain ⟨js, capacity, large, short⟩ := Made.chunkInfo_mem done member
  obtain ⟨writes, c, known, -, small⟩ := safe
  obtain rfl := Option.some.inj (capacity.symm.trans known)
  have gap := headerGap_le (btrim chunk.js.jsource) (btrim chunk.js.jdestination) chunk.js.jpriority
  refine ⟨js ▸ writes, ?_⟩
  change max _ chunk.systemCapacity.toNat ≤ 1073741819 ∧ ∀ c' ∈ some chunk.systemCapacity, _
  change chunk.systemCapacity ≤ 1073741819 at small
  unfold IsInt4 int4Min int4Max Job.gap
  simp only [Option.mem_some_iff, forall_eq']
  omega

theorem singleMessage_row {i : Nat} {job : Job} (made : singleMessage env (row, i) = .ok job) :
    job.jobid = env.uuid 2 i ∧ job.jstate = .S4 ∧ job.jparentJobid = row.2.1.jobid := by
  obtain ⟨mdata, first, last⟩ := singleMessage_ok made
  exact message_row first last

theorem chunkMessage_row {chunk : Chunk} {i : Nat} {job : Job}
    (made : chunkMessage env (chunk, i) = .ok job) :
    job.jobid = env.uuid 3 i ∧ job.jstate = .S4 ∧ job.jparentJobid = chunk.js.jobid := by
  obtain ⟨mdata, first, last⟩ := chunkMessage_ok made
  exact message_row first last

theorem infoMessage_row {i : Nat} {job : Job} (made : infoMessage env (row, i) = .ok job) :
    job.jobid = env.uuid 4 i ∧ job.jstate = .S4 ∧ job.jparentJobid = row.2.1.jobid := by
  obtain ⟨capacity, count, mdata, -, -, -, first, last⟩ := infoMessage_ok made
  exact message_row first last

theorem singleJob_shape (read : joined db .S3 = .ok rows) :
    singleJob env db = (rows.zipIdx.mapM (singleMessage env) >>= db.insertJobs) := by
  simp only [singleJob, read]
  rfl

theorem chunkJobs_shape {parts : List (List Chunk)} (read : joined db .S2 = .ok rows)
    (cut : rows.mapM chunkInfo = .ok parts) : chunkJobs env db =
      (parts.flatten.zipIdx.mapM (chunkMessage env) >>= db.insertJobs) := by
  simp only [chunkJobs, read, bind, Except.bind, cut]

theorem infoJobs_shape (read : joined db .S2 = .ok rows) :
    infoJobs env db = (rows.zipIdx.mapM (infoMessage env) >>= db.insertJobs) := by
  simp only [infoJobs, read]
  rfl

theorem joined_parent {state : JState} (read : joined db state = .ok rows) (member : row ∈ rows) :
    row.2.1.jobid ∈ db.jobids :=
  List.mem_map.mpr ⟨row.2.1, (joined_mem read member).1, rfl⟩

theorem succeeds_singleJob (read : joined db .S3 = .ok rows)
    (measured : ∀ row ∈ rows, Measured row) : Succeeds (singleJob env db) ↔
      (∀ row ∈ rows, SingleSafe row) ∧ Fresh db (drawn env 2 rows.length) := by
  rw [singleJob_shape read]
  apply succeeds_insert
  · exact fun row member i => succeeds_singleMessage (measured row member) i
  · intro row member i job made
    obtain ⟨id, -, parent⟩ := singleMessage_row made
    exact ⟨id, parent ▸ joined_parent read member⟩

theorem succeeds_chunkJobs {parts : List (List Chunk)} (read : joined db .S2 = .ok rows)
    (cut : rows.mapM chunkInfo = .ok parts) : Succeeds (chunkJobs env db) ↔
      (∀ chunk ∈ parts.flatten, ChunkSafe chunk) ∧
        Fresh db (drawn env 3 parts.flatten.length) := by
  rw [chunkJobs_shape read cut]
  apply succeeds_insert
  · exact fun chunk _ i => succeeds_chunkMessage i
  · intro chunk member i job made
    obtain ⟨id, -, parent⟩ := chunkMessage_row made
    obtain ⟨part, listed, inside⟩ := List.mem_flatten.mp member
    obtain ⟨row, source, done⟩ := forall₂_mem_right (mapM_ok.mp cut) listed
    have js := (Made.chunkInfo_mem done inside).1
    exact ⟨id, parent ▸ js ▸ joined_parent read source⟩

theorem succeeds_infoJobs (read : joined db .S2 = .ok rows)
    (measured : ∀ row ∈ rows, Measured row) : Succeeds (infoJobs env db) ↔
      (∀ row ∈ rows, CutSafe row) ∧ Fresh db (drawn env 4 rows.length) := by
  rw [infoJobs_shape read]
  apply succeeds_insert
  · exact fun row member i => succeeds_infoMessage (measured row member) i
  · intro row member i job made
    obtain ⟨id, -, parent⟩ := infoMessage_row made
    exact ⟨id, parent ▸ joined_parent read member⟩

theorem Adds.joined {statement count : Nat} {state : JState}
    (adds : Adds env statement count db u) (other : state ≠ .S4) :
    joined u state = joined db state := by
  obtain ⟨fresh, rows, ready⟩ := adds.rows
  have none : fresh.filter (fun js => js.jstate = state) = [] := by
    refine List.filter_eq_nil_iff.mpr fun js member same => other ?_
    rw [← of_decide_eq_true same, ready js member]
  have names : namesakes u = namesakes db := by
    funext js
    exact namesakes_frame adds.only rfl rfl
  rw [RunJobs.joined, rows, List.filter_append, none, List.append_nil, names, RunJobs.joined]

theorem succeeds_messages {singles cuts : List (File × Job × SysInfo)}
    (third : joined v .S3 = .ok singles) (second : joined v .S2 = .ok cuts)
    (single : ∀ row ∈ singles, Measured row) (cut : ∀ row ∈ cuts, Measured row) :
    Succeeds (singleJob env v >>= fun a => chunkJobs env a >>= infoJobs env) ↔
      MessagesSafe env v := by
  have adds {a : Db} (done : singleJob env v = .ok a) : Adds env 2 singles.length v a :=
    adds_insert (fun row _ i job made =>
      ⟨(singleMessage_row made).1, (singleMessage_row made).2.1⟩) (singleJob_shape third ▸ done)
  have more {a b : Db} {parts : List (List Chunk)} (read : joined a .S2 = .ok cuts)
      (parted : cuts.mapM chunkInfo = .ok parts) (done : chunkJobs env a = .ok b) :
      Adds env 3 parts.flatten.length a b :=
    adds_insert (fun chunk _ i job made =>
      ⟨(chunkMessage_row made).1, (chunkMessage_row made).2.1⟩) (chunkJobs_shape read parted ▸ done)
  constructor
  · rintro ⟨c, done⟩
    obtain ⟨a, first, rest⟩ := bind_ok.mp done
    obtain ⟨b, middle, last⟩ := bind_ok.mp rest
    have readA : joined a .S2 = .ok cuts := ((adds first).joined (by decide)).trans second
    obtain ⟨parts, parted⟩ : Succeeds (cuts.mapM chunkInfo) := by
      obtain ⟨rows, read, rest⟩ := bind_ok.mp middle
      obtain rfl := Except.ok.inj (readA.symm.trans read)
      obtain ⟨parts, parted, -⟩ := bind_ok.mp rest
      exact ⟨parts, parted⟩
    have readB : joined b .S2 = .ok cuts :=
      ((more readA parted middle).joined (by decide)).trans readA
    obtain ⟨safe, freshA⟩ := (succeeds_singleJob third single).mp ⟨a, first⟩
    obtain ⟨-, freshB⟩ := (succeeds_chunkJobs readA parted).mp ⟨b, middle⟩
    obtain ⟨safe', freshC⟩ := (succeeds_infoJobs readB cut).mp ⟨c, last⟩
    refine ⟨fun rows read => ?_, fun rows read => ?_, fun rows rows' parts' read read' again => ?_⟩
    · rwa [← Except.ok.inj (third.symm.trans read)]
    · rwa [← Except.ok.inj (second.symm.trans read)]
    · rw [← Except.ok.inj (third.symm.trans read)]
      obtain rfl := Except.ok.inj (second.symm.trans read')
      obtain rfl := Except.ok.inj (parted.symm.trans again)
      exact (fresh_append (adds first).ids).mpr ⟨freshA,
        (fresh_append (more readA parted middle).ids).mpr ⟨freshB, freshC⟩⟩
  · intro safe
    have cutSafe := safe.cuts cuts second
    obtain ⟨parts, parted⟩ : Succeeds (cuts.mapM chunkInfo) :=
      succeeds_mapM.mpr fun row member => succeeds_chunkInfo (cut row member) (cutSafe row member)
    have chunkSafe : ∀ chunk ∈ parts.flatten, ChunkSafe chunk := by
      intro chunk member
      obtain ⟨part, listed, inside⟩ := List.mem_flatten.mp member
      obtain ⟨row, source, done⟩ := forall₂_mem_right (mapM_ok.mp parted) listed
      exact chunkSafe_of_cut (cutSafe row source) done inside
    have fresh := safe.ids singles cuts parts third second parted
    have freshA : Fresh v (drawn env 2 singles.length) :=
      ⟨fresh.1.of_append_left, fun id member => fresh.2 id (List.mem_append_left _ member)⟩
    obtain ⟨a, first⟩ := (succeeds_singleJob third single).mpr ⟨safe.singles singles third, freshA⟩
    have readA : joined a .S2 = .ok cuts := ((adds first).joined (by decide)).trans second
    have later := ((fresh_append (adds first).ids).mp fresh).2
    have freshB : Fresh a (drawn env 3 parts.flatten.length) :=
      ⟨later.1.of_append_left, fun id member => later.2 id (List.mem_append_left _ member)⟩
    obtain ⟨b, middle⟩ := (succeeds_chunkJobs readA parted).mpr ⟨chunkSafe, freshB⟩
    have readB : joined b .S2 = .ok cuts :=
      ((more readA parted middle).joined (by decide)).trans readA
    have freshC := ((fresh_append (more readA parted middle).ids).mp later).2
    obtain ⟨c, last⟩ := (succeeds_infoJobs readB cut).mpr ⟨cutSafe, freshC⟩
    exact ⟨c, bind_ok.mpr ⟨a, first, bind_ok.mpr ⟨b, middle, last⟩⟩⟩

theorem measured_joined (calm : ∀ job ∈ u.jobScheduler, ¬ Transient job.jstate)
    (all : ∀ js ∈ u.jobScheduler, js.jstate = .S1 → Measurable u js)
    (done : (startSplit u >>= startSingle) = .ok v) {state : JState}
    (transient : Transient state) (read : joined v state = .ok rows) :
    ∀ row ∈ rows, Measured row := by
  intro row member
  obtain ⟨a, split, single⟩ := bind_ok.mp done
  obtain ⟨inside, present, joins⟩ := Made.joined_joins read member
  have before := joins.frame ((updateJobsM_ok split).1.trans (updateJobsM_ok single).1)
  have source : ∃ q ∈ u.jobScheduler, q.jstate = .S1 ∧
      row.2.1.jdestination = q.jdestination := by
    cases transient with
    | inl cut =>
        obtain ⟨q, origin, start, -, same⟩ :=
          Made.cut_origin calm split single inside (present.trans cut)
        exact ⟨q, origin, start, by rw [same]⟩
    | inr whole =>
        obtain ⟨q, origin, start, -, -, same⟩ :=
          Made.single_origin calm split single inside (present.trans whole)
        exact ⟨q, origin, start, by rw [same]⟩
  obtain ⟨q, origin, start, destination⟩ := source
  have compared := all q origin start row.1 before.file row.2.2 before.known
    (destination.symm.trans before.destination)
  exact ⟨compared.1, fun c capacity => (compared.2 c capacity).1⟩

theorem succeeds_splitJobs (calm : ∀ job ∈ u.jobScheduler, ¬ Transient job.jstate) :
    Succeeds (splitJobs env u) ↔ SplitSafe env u := by
  have shape : splitJobs env u = ((startSplit u >>= startSingle) >>= fun v =>
      (singleJob env v >>= fun a => chunkJobs env a >>= infoJobs env) >>= fun e =>
        pure (awaitChildren e)) := by
    simp only [splitJobs, bind_assoc]
  have messages {v : Db} (all : ∀ js ∈ u.jobScheduler, js.jstate = .S1 → Measurable u js)
      (done : (startSplit u >>= startSingle) = .ok v) (third : Succeeds (joined v .S3))
      (second : Succeeds (joined v .S2)) :
      Succeeds (singleJob env v >>= fun a => chunkJobs env a >>= infoJobs env) ↔
        MessagesSafe env v := by
    obtain ⟨singles, readThird⟩ := third
    obtain ⟨cuts, readSecond⟩ := second
    apply succeeds_messages readThird readSecond
    · exact measured_joined calm all done (.inr rfl) readThird
    · exact measured_joined calm all done (.inl rfl) readSecond
  rw [shape, succeeds_bind]
  simp only [succeeds_return]
  constructor
  · rintro ⟨⟨v, done⟩, rest⟩
    have made := rest v done
    obtain ⟨c, steps⟩ := made
    obtain ⟨a, first, later⟩ := bind_ok.mp steps
    obtain ⟨b, middle, -⟩ := bind_ok.mp later
    obtain ⟨singles, third, inserted⟩ := bind_ok.mp first
    have second : Succeeds (joined v .S2) := by
      obtain ⟨cuts, read, -⟩ := bind_ok.mp middle
      have adds : Adds env 2 singles.length v a := adds_insert (fun row _ i job made =>
        ⟨(singleMessage_row made).1, (singleMessage_row made).2.1⟩) (singleJob_shape third ▸ first)
      exact ⟨cuts, (adds.joined (by decide)).symm.trans read⟩
    have all := (succeeds_choice calm).mp ⟨v, done, ⟨singles, third⟩, second⟩
    refine ⟨all, fun v' again => ?_⟩
    obtain rfl := Except.ok.inj (done.symm.trans again)
    exact (messages all done ⟨singles, third⟩ second).mp ⟨c, steps⟩
  · intro safe
    obtain ⟨v, done, third, second⟩ := (succeeds_choice calm).mpr safe.measurable
    refine ⟨⟨v, done⟩, fun v' again => ?_⟩
    obtain rfl := Except.ok.inj (done.symm.trans again)
    exact (messages safe.measurable done third second).mpr (safe.messages v done)

end Split

end Commits

end FileSharing
