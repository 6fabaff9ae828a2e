import FileSharing.Database.Layout
import FileSharing.Database.Tree

/-! For which rows of the joins a pass makes its messages, and how long these are. -/

namespace FileSharing

open Library RunJobs Completion

namespace Made

section Length

variable {env : Env} {now : Timestamp} {id : Uuid} {type source destination priority : Text}
  {subheader messaget message : Bytea}

/-- `create_message` pads up to the capacity and never cuts. -/
def paddedTo (used : Nat) : Option Int → Nat
  | none => used
  | some capacity => max used capacity.toNat

theorem extraPad_length {length pad : Nat} {capacity : Option Int}
    (done : extraPad length capacity = .ok pad) :
    32 + (length + pad) = paddedTo (32 + length) capacity := by
  cases capacity with
  | none =>
      obtain rfl := Except.ok.inj done
      rfl
  | some capacity =>
      have count := extraPad_ok done
      rw [paddedTo]
      omega

theorem length_createMessage {capacity : Option Int} (cleanType : Clean type)
    (done : createMessage now id.text type subheader messaget source destination priority
      capacity = .ok message) :
    message.length = paddedTo (114 - headerGap source destination priority + subheader.length +
      messaget.length) capacity := by
  obtain ⟨ty, src, dst, prio, pad, hty, hsrc, hdst, hprio, room, last⟩ := createMessage_ok done
  obtain rfl := Except.ok.inj (hty.symm.trans (byteain_clean (cleanType.lpad 5)))
  have first := castGap_ok hsrc
  have second := castGap_ok hdst
  have third := castGap_ok hprio
  rw [(sealMessage_ok last).1, List.length_append, length_md5]
  have used : 32 + (messageBody id.text (lpad type 5) src dst prio now.text
      (subheader ++ messaget)).length =
      114 - headerGap source destination priority + subheader.length + messaget.length := by
    simp only [messageBody, headerGap, List.length_append, id.length, length_lpad, now.length]
    omega
  rw [← used, ← extraPad_length room]
  simp only [messageBody, List.length_append, List.length_replicate]
  omega

end Length

section Rows

variable {env : Env} {db db' : Db} {state : JState} {rows : List (File × Job × SysInfo)}

theorem namesakes_mem {js : Job} {pair : File × SysInfo} {pairs : List (File × SysInfo)}
    (done : namesakes db js = .ok pairs) (member : pair ∈ pairs) :
    pair.1 ∈ db.files ∧ byteain pair.1.fileName = .ok js.jobdata ∧ pair.2 ∈ db.sysinfo ∧
      js.jdestination = pair.2.systemName := by
  obtain ⟨named, read, rest⟩ := bind_ok.mp done
  rw [← pure_ok.mp rest] at member
  obtain ⟨⟨f, name⟩, chosen, inside⟩ := List.mem_flatMap.mp member
  obtain ⟨si, row, rfl⟩ := List.mem_map.mp inside
  obtain ⟨listed, same⟩ := List.mem_filter.mp chosen
  obtain ⟨present, destination⟩ := List.mem_filter.mp row
  obtain ⟨f', stored, made⟩ := forall₂_mem_right (mapM_ok.mp read) listed
  obtain ⟨data, cast, pair⟩ := bind_ok.mp made
  obtain ⟨rfl, rfl⟩ := Prod.mk.inj (pure_ok.mp pair)
  have equal : data = js.jobdata := of_decide_eq_true same
  exact ⟨stored, equal ▸ cast, present, of_decide_eq_true destination⟩

/-- A row of the joins is a job with a file that it names and a row of its destination. -/
structure Joins (db : Db) (row : File × Job × SysInfo) : Prop where
  file : row.1 ∈ db.files
  name : byteain row.1.fileName = .ok row.2.1.jobdata
  known : row.2.2 ∈ db.sysinfo
  destination : row.2.1.jdestination = row.2.2.systemName

theorem joined_joins (done : joined db state = .ok rows) {row : File × Job × SysInfo}
    (member : row ∈ rows) :
    row.2.1 ∈ db.jobScheduler ∧ row.2.1.jstate = state ∧ Joins db row := by
  obtain ⟨present, known⟩ := joined_mem done member
  obtain ⟨parts, built, rest⟩ := bind_ok.mp done
  rw [← pure_ok.mp rest] at member
  obtain ⟨part, inside, within⟩ := List.mem_flatten.mp member
  obtain ⟨js, -, made⟩ := forall₂_mem_right (mapM_ok.mp built) inside
  obtain ⟨pairs, found, same⟩ := bind_ok.mp made
  rw [← pure_ok.mp same] at within
  obtain ⟨pair, listed, rfl⟩ := List.mem_map.mp within
  obtain ⟨file, name, row, destination⟩ := namesakes_mem found listed
  exact ⟨present, known, file, name, row, destination⟩

theorem Joins.frame {row : File × Job × SysInfo} (joins : Joins db' row) (only : OnlyJobs db db') :
    Joins db row :=
  ⟨only.files ▸ joins.file, joins.name, only.sysinfo ▸ joins.known, joins.destination⟩

theorem Joins.measured {row : File × Job × SysInfo} (joins : Joins db row)
    {test : Int → Int → Bool} {holds : Bool} {capacity : Int}
    (read : RunJobs.measured db test row.2.1 = .ok holds)
    (known : row.2.2.systemCapacity = some capacity) (nonzero : capacity ≠ 0)
    (chosen : test row.1.fileData.length (capacity - 172) = true) : holds = true := by
  obtain ⟨names, tested, rest⟩ := bind_ok.mp read
  rw [← pure_ok.mp rest, decide_eq_true_eq]
  have pair : (row.1, row.2.2) ∈ db.files.flatMap fun f =>
      (db.sysinfo.filter fun si => row.2.1.jdestination = si.systemName).map (f, ·) :=
    List.mem_flatMap.mpr ⟨row.1, joins.file, List.mem_map.mpr
      ⟨row.2.2, List.mem_filter.mpr ⟨joins.known, decide_eq_true joins.destination⟩, rfl⟩⟩
  obtain ⟨result, listed, made⟩ := forall₂_mem_left (mapM_ok.mp tested) pair
  obtain ⟨data, loaded, made⟩ := bind_ok.mp made
  rw [(loGet_ok loaded).1, known] at made
  obtain ⟨room, range, made⟩ := bind_ok.mp made
  obtain rfl := (int4_ok range).1
  rw [if_pos (by simpa using And.intro chosen nonzero)] at made
  obtain ⟨cast, read, same⟩ := bind_ok.mp made
  obtain rfl := Except.ok.inj (joins.name.symm.trans read)
  rw [← pure_ok.mp same] at listed
  exact listed

theorem measured_true {job : Job} {test : Int → Int → Bool}
    (read : RunJobs.measured db test job = .ok true) :
    ∃ fd si capacity, Joins db (fd, job, si) ∧ si.systemCapacity = some capacity ∧ capacity ≠ 0 ∧
      test fd.fileData.length (capacity - 172) = true := by
  obtain ⟨names, tested, rest⟩ := bind_ok.mp read
  have listed : some job.jobdata ∈ names := by simpa using pure_ok.mp rest
  obtain ⟨⟨fd, si⟩, pair, made⟩ := forall₂_mem_right (mapM_ok.mp tested) listed
  obtain ⟨fd', file, inside⟩ := List.mem_flatMap.mp pair
  obtain ⟨si', row, same⟩ := List.mem_map.mp inside
  obtain ⟨rfl, rfl⟩ := Prod.mk.inj same
  obtain ⟨known, destination⟩ := List.mem_filter.mp row
  obtain ⟨data, loaded, made⟩ := bind_ok.mp made
  rw [(loGet_ok loaded).1] at made
  split at made
  · cases pure_ok.mp made
  · next capacity found =>
      obtain ⟨room, range, made⟩ := bind_ok.mp made
      obtain rfl := (int4_ok range).1
      split at made
      · next chosen =>
          obtain ⟨cast, name, same⟩ := bind_ok.mp made
          obtain rfl := Option.some.inj (pure_ok.mp same)
          simp only [Bool.and_eq_true, decide_eq_true_eq] at chosen
          exact ⟨fd', si', capacity, ⟨file, name, known, of_decide_eq_true destination⟩, found,
            chosen.2, chosen.1⟩
      · cases pure_ok.mp made

end Rows

section Split

variable {env : Env} {u v a b : Db}

theorem single_origin (calm : ∀ job ∈ u.jobScheduler, ¬ Transient job.jstate)
    (split : startSplit u = .ok a) (single : startSingle a = .ok b) {js : Job}
    (member : js ∈ b.jobScheduler) (state : js.jstate = .S3) :
    ∃ q ∈ u.jobScheduler, q.jstate = .S1 ∧ measured u (fun l r => l > r) q = .ok false ∧
      measured u (fun l r => l ≤ r) q = .ok true ∧ js = { q with jstate := .S3 } := by
  rw [middle_rows split single] at member
  obtain ⟨q, inside, rfl⟩ := List.mem_map.mp member
  rcases split_cases (calm q inside) with ⟨h, -⟩ | ⟨-, -, h, -⟩ | ⟨start, other, short, h, -⟩
  · rw [h] at state
    exact absurd (.inr state) (calm q inside)
  · rw [h] at state
    cases state
  · obtain ⟨holds, read⟩ := (updateJobsM_ok split).2.1 q inside
    rw [if_pos start] at read
    cases holds with
    | true => exact absurd read other
    | false => exact ⟨q, inside, start, read, short, h⟩

theorem cut_origin (calm : ∀ job ∈ u.jobScheduler, ¬ Transient job.jstate)
    (split : startSplit u = .ok a) (single : startSingle a = .ok b) {js : Job}
    (member : js ∈ b.jobScheduler) (state : js.jstate = .S2) :
    ∃ q ∈ u.jobScheduler, q.jstate = .S1 ∧ measured u (fun l r => l > r) q = .ok true ∧
      js = { q with jstate := .S2 } := by
  rw [middle_rows split single] at member
  obtain ⟨q, inside, rfl⟩ := List.mem_map.mp member
  rcases split_cases (calm q inside) with ⟨h, -⟩ | ⟨start, long, h, -⟩ | ⟨-, -, -, h, -⟩
  · rw [h] at state
    exact absurd (.inl state) (calm q inside)
  · exact ⟨q, inside, start, long, h⟩
  · rw [h] at state
    cases state

theorem chunkInfo_mem {fd : File} {js : Job} {si : SysInfo} {part : List Chunk} {chunk : Chunk}
    (done : chunkInfo (fd, js, si) = .ok part) (member : chunk ∈ part) :
    chunk.js = js ∧ si.systemCapacity = some chunk.systemCapacity ∧ 172 < chunk.systemCapacity ∧
      (chunk.chunkData.length : Int) ≤ chunk.systemCapacity - 172 := by
  obtain ⟨data, read, rest⟩ := bind_ok.mp done
  obtain rfl := (loGet_ok read).1
  cases known : si.systemCapacity with
  | none =>
      rw [known] at rest
      obtain rfl := pure_ok.mp rest
      cases member
  | some capacity =>
      rw [known] at rest
      obtain ⟨size, room, rest⟩ := bind_ok.mp rest
      obtain rfl := (int4_ok room).1
      obtain ⟨count, quotient, last⟩ := bind_ok.mp rest
      obtain ⟨idx, inside, made⟩ := forall₂_mem_right (mapM_ok.mp last) member
      obtain ⟨piece, loaded, same⟩ := bind_ok.mp made
      obtain rfl := pure_ok.mp same
      have positive : 0 < count := by
        have below := List.mem_range.mp inside
        omega
      obtain ⟨nonzero, counted⟩ := ceilDiv_ok quotient
      have large : 172 < capacity := by
        by_contra low
        have flipped : Int.fdiv (-(fd.fileData.length : Int)) (capacity - 172) =
            (fd.fileData.length : Int) / (172 - capacity) := by
          rw [show capacity - 172 = -(172 - capacity) by omega, Int.neg_fdiv_neg,
            Int.fdiv_eq_ediv_of_nonneg _ (by omega)]
        have quotient : 0 ≤ (fd.fileData.length : Int) / (172 - capacity) :=
          Int.ediv_nonneg (by omega) (by omega)
        omega
      refine ⟨rfl, rfl, large, ?_⟩
      dsimp only
      rw [(loGet_ok loaded).1, List.length_take]
      omega

inductive MadeFrom (env : Env) (u : Db) (job : Job) : Prop
  | single (q : Job) (fd : File) (si : SysInfo) (i : Nat) (member : q ∈ u.jobScheduler)
      (start : q.jstate = .S1) (joins : Joins u (fd, q, si))
      (long : measured u (fun l r => l > r) q = .ok false)
      (short : measured u (fun l r => l ≤ r) q = .ok true)
      (made : singleMessage env ((fd, { q with jstate := .S3 }, si), i) = .ok job)
  | chunk (q : Job) (fd : File) (si : SysInfo) (part : List Chunk) (chunk : Chunk) (i : Nat)
      (member : q ∈ u.jobScheduler) (start : q.jstate = .S1) (joins : Joins u (fd, q, si))
      (long : measured u (fun l r => l > r) q = .ok true)
      (cut : chunkInfo (fd, { q with jstate := .S2 }, si) = .ok part) (inside : chunk ∈ part)
      (made : chunkMessage env (chunk, i) = .ok job)
  | info (q : Job) (fd : File) (si : SysInfo) (i : Nat) (member : q ∈ u.jobScheduler)
      (start : q.jstate = .S1) (joins : Joins u (fd, q, si))
      (long : measured u (fun l r => l > r) q = .ok true)
      (made : infoMessage env ((fd, { q with jstate := .S2 }, si), i) = .ok job)

theorem singleJob_rows (done : singleJob env u = .ok v) :
    ∃ fresh, v.jobScheduler = u.jobScheduler ++ fresh ∧ ∀ job ∈ fresh, ∃ rows row i,
      joined u .S3 = .ok rows ∧ row ∈ rows ∧ singleMessage env (row, i) = .ok job := by
  obtain ⟨rows, read, rest⟩ := bind_ok.mp done
  obtain ⟨jobs, built, inserted⟩ := bind_ok.mp rest
  refine ⟨jobs, (insertJobs_ok inserted).1, fun job member => ?_⟩
  obtain ⟨⟨row, i⟩, inside, made⟩ := forall₂_mem_right (mapM_ok.mp built) member
  exact ⟨rows, row, i, read, mem_zipIdx_left inside, made⟩

theorem chunkJobs_rows (done : chunkJobs env u = .ok v) :
    ∃ fresh, v.jobScheduler = u.jobScheduler ++ fresh ∧ ∀ job ∈ fresh, ∃ rows row part chunk i,
      joined u .S2 = .ok rows ∧ row ∈ rows ∧ chunkInfo row = .ok part ∧ chunk ∈ part ∧
      chunkMessage env (chunk, i) = .ok job := by
  obtain ⟨rows, read, rest⟩ := bind_ok.mp done
  obtain ⟨chunks, cut, rest⟩ := bind_ok.mp rest
  obtain ⟨jobs, built, inserted⟩ := bind_ok.mp rest
  refine ⟨jobs, (insertJobs_ok inserted).1, fun job member => ?_⟩
  obtain ⟨⟨chunk, i⟩, inside, made⟩ := forall₂_mem_right (mapM_ok.mp built) member
  obtain ⟨part, listed, within⟩ := List.mem_flatten.mp (mem_zipIdx_left inside)
  obtain ⟨row, source, cutting⟩ := forall₂_mem_right (mapM_ok.mp cut) listed
  exact ⟨rows, row, part, chunk, i, read, source, cutting, within, made⟩

theorem infoJobs_rows (done : infoJobs env u = .ok v) :
    ∃ fresh, v.jobScheduler = u.jobScheduler ++ fresh ∧ ∀ job ∈ fresh, ∃ rows row i,
      joined u .S2 = .ok rows ∧ row ∈ rows ∧ infoMessage env (row, i) = .ok job := by
  obtain ⟨rows, read, rest⟩ := bind_ok.mp done
  obtain ⟨jobs, built, inserted⟩ := bind_ok.mp rest
  refine ⟨jobs, (insertJobs_ok inserted).1, fun job member => ?_⟩
  obtain ⟨⟨row, i⟩, inside, made⟩ := forall₂_mem_right (mapM_ok.mp built) member
  exact ⟨rows, row, i, read, mem_zipIdx_left inside, made⟩

inductive CutState (env : Env) (u : Db) (x : Db) : Prop
  | chunks (a b : Db) (split : startSplit u = .ok a) (single : startSingle a = .ok b)
      (singled : singleJob env b = .ok x)
  | infos (a b c : Db) (split : startSplit u = .ok a) (single : startSingle a = .ok b)
      (singled : singleJob env b = .ok c) (chunked : chunkJobs env c = .ok x)

theorem CutState.before {x : Db} (state : CutState env u x) :
    ∃ a b fresh, startSplit u = .ok a ∧ startSingle a = .ok b ∧ OnlyJobs u x ∧
      x.jobScheduler = b.jobScheduler ++ fresh ∧ ∀ job ∈ fresh, job.jstate = .S4 := by
  have until_b {a b : Db} (split : startSplit u = .ok a) (single : startSingle a = .ok b) :
      OnlyJobs u b := (updateJobsM_ok split).1.trans (updateJobsM_ok single).1
  cases state with
  | chunks a b split single singled =>
      obtain ⟨fresh, rows, made⟩ := singleJob_made singled
      exact ⟨a, b, fresh, split, single,
        (until_b split single).trans (singleJob_ok (w := quiet) singled).2, rows,
        fun job member => (made job member).jstate⟩
  | infos a b c split single singled chunked =>
      obtain ⟨first, rows, made⟩ := singleJob_made singled
      obtain ⟨second, rows', made'⟩ := chunkJobs_rows chunked
      refine ⟨a, b, first ++ second, split, single, ?_, ?_, ?_⟩
      · exact ((until_b split single).trans (singleJob_ok (w := quiet) singled).2).trans
          (chunkJobs_ok (w := quiet) chunked).2
      · rw [rows', rows, List.append_assoc]
      · intro job member
        rcases List.mem_append.mp member with one | two
        · exact (made job one).jstate
        · obtain ⟨-, -, -, chunk, i, -, -, -, -, built⟩ := made' job two
          obtain ⟨mdata, -, last⟩ := chunkMessage_ok built
          exact (messageJob_ok last).2.2.1

theorem CutState.joined {x : Db} (state : CutState env u x)
    (calm : ∀ job ∈ u.jobScheduler, ¬ Transient job.jstate) {rows : List (File × Job × SysInfo)}
    (done : RunJobs.joined x .S2 = .ok rows) {row : File × Job × SysInfo} (member : row ∈ rows) :
    ∃ q ∈ u.jobScheduler, q.jstate = .S1 ∧ measured u (fun l r => l > r) q = .ok true ∧
      row.2.1 = { q with jstate := .S2 } ∧ Joins u (row.1, q, row.2.2) := by
  obtain ⟨a, b, fresh, split, single, only, appended, ready⟩ := state.before
  obtain ⟨present, cut, joins⟩ := joined_joins done member
  rw [appended] at present
  rcases List.mem_append.mp present with old | new
  · obtain ⟨q, inside, start, long, same⟩ := cut_origin calm split single old cut
    refine ⟨q, inside, start, long, same, ?_⟩
    have before := joins.frame only
    exact ⟨before.file, by simpa [same] using before.name, before.known,
      by simpa [same] using before.destination⟩
  · cases cut.symm.trans (ready _ new)

theorem awaiting_s4 {db : Db} {job : Job} (ready : (awaiting db job).jstate = .S4) :
    awaiting db job = job := by
  unfold awaiting at ready ⊢
  by_cases cut : (job.jstate = .S2 && knownName db job.jdestination) = true
  · simp [cut] at ready
  · by_cases single : (job.jstate = .S3 && knownName db job.jdestination) = true
    · simp [cut, single] at ready
    · simp [cut, single]

theorem splitJobs_made (calm : ∀ job ∈ u.jobScheduler, ¬ Transient job.jstate)
    (done : splitJobs env u = .ok v) {job : Job} (member : job ∈ v.jobScheduler)
    (ready : job.jstate = .S4) : job ∈ u.jobScheduler ∨ MadeFrom env u job := by
  obtain ⟨a, split, rest⟩ := bind_ok.mp done
  obtain ⟨b, single, rest⟩ := bind_ok.mp rest
  obtain ⟨c, singled, rest⟩ := bind_ok.mp rest
  obtain ⟨d, chunked, rest⟩ := bind_ok.mp rest
  obtain ⟨e, informed, last⟩ := bind_ok.mp rest
  obtain rfl := pure_ok.mp last
  rw [awaitChildren_rows] at member
  obtain ⟨row, inside, rfl⟩ := List.mem_map.mp member
  have same := awaiting_s4 ready
  rw [same] at ready ⊢
  obtain ⟨singles, rowsC, madeC⟩ := singleJob_rows singled
  obtain ⟨chunks, rowsD, madeD⟩ := chunkJobs_rows chunked
  obtain ⟨infos, rowsE, madeE⟩ := infoJobs_rows informed
  have toB := (updateJobsM_ok split).1.trans (updateJobsM_ok single).1
  rw [rowsE, rowsD, rowsC] at inside
  rcases List.mem_append.mp inside with first | info
  · rcases List.mem_append.mp first with first | chunk
    · rcases List.mem_append.mp first with old | one
      · left
        rw [middle_rows split single] at old
        obtain ⟨q, there, rfl⟩ := List.mem_map.mp old
        rcases split_cases (calm q there) with ⟨h, -⟩ | ⟨-, -, h, -⟩ | ⟨-, -, -, h, -⟩
        · rwa [h]
        · rw [h] at ready
          cases ready
        · rw [h] at ready
          cases ready
      · right
        obtain ⟨rows, ⟨fd, js, si⟩, i, read, listed, made⟩ := madeC row one
        obtain ⟨present, state, joins⟩ := joined_joins read listed
        obtain ⟨q, there, start, long, short, rfl⟩ := single_origin calm split single present state
        have before := joins.frame toB
        exact .single q fd si i there start
          ⟨before.file, before.name, before.known, before.destination⟩ long short made
    · right
      obtain ⟨rows, ⟨fd, js, si⟩, part, piece, i, read, listed, cut, within, made⟩ :=
        madeD row chunk
      obtain ⟨q, there, start, long, rfl, joins⟩ :=
        (CutState.chunks a b split single singled).joined calm read listed
      exact .chunk q fd si part piece i there start joins long cut within made
  · right
    obtain ⟨rows, ⟨fd, js, si⟩, i, read, listed, made⟩ := madeE row info
    obtain ⟨q, there, start, long, rfl, joins⟩ :=
      (CutState.infos a b c split single singled chunked).joined calm read listed
    exact .info q fd si i there start joins long made

theorem ready_evolves {w : Scope} {made : Job → Prop} (evolves : Evolves w made u v) {job : Job}
    (member : job ∈ v.jobScheduler) (ready : job.jstate = .S4) :
    job ∈ u.jobScheduler ∨ made job := by
  obtain ⟨-, change, fresh, kept, rows, each⟩ := evolves
  rw [rows] at member
  rcases List.mem_append.mp member with old | new
  · obtain ⟨q, inside, rfl⟩ := List.mem_map.mp old
    have before : q.jstate = .S4 := Promotes.of_s4 (ready ▸ (kept q).jstate)
    rw [(kept q).fixed (before ▸ fixed_s4)]
    exact .inl inside
  · exact .inr (each job new)

/-- No statement before makes a row in S-4. -/
theorem ready_beforeSplit (done : beforeSplit env u = .ok v) {job : Job}
    (member : job ∈ v.jobScheduler) (ready : job.jstate = .S4) : job ∈ u.jobScheduler := by
  obtain ⟨a, promoted, rest⟩ := bind_ok.mp done
  obtain ⟨b, answered, replied⟩ := bind_ok.mp rest
  have finished {digit : String} {x : Db} {row : Job}
      (member : row ∈ (finishPending digit x).jobScheduler) (ready : row.jstate = .S4) :
      row ∈ x.jobScheduler := by
    have evolves : Evolves quiet (fun _ => False) x (finishPending digit x) :=
      evolves_finishPending digit x
    exact (ready_evolves evolves member ready).elim id False.elim
  obtain ⟨c, applied, rfl⟩ := takeReplies_ok replied
  have inB : job ∈ b.jobScheduler := (applyReplies_frame applied).jobScheduler ▸ finished member ready
  have inA : job ∈ a.jobScheduler := by
    rcases answerRequests_ok answered with ⟨-, rfl⟩ | ⟨request, r, reply, x, y, -, -, written, made,
      inserted, rfl⟩
    · exact finished inB ready
    · have present := finished inB ready
      rw [(insertJob_ok inserted).1, (upsertSysinfo_frame written).jobScheduler] at present
      rcases List.mem_append.mp present with old | new
      · exact old
      · rw [List.mem_singleton.mp new, (consensusJob_row made).2.1] at ready
        cases ready
  rcases ready_evolves (promote_ok (w := ⟨true, false⟩) rfl promoted).1 inA ready with old | new
  · exact old
  · obtain ⟨i, si, -, js, -, -, made⟩ := new
    rw [(consensusJob_row made).2.1] at ready
    cases ready

theorem runJobs_made {root : Uuid} (tree : Tree root u) (done : runJobs env u = .ok v) :
    ∃ x, beforeSplit env u = .ok x ∧ v.sysinfo = x.sysinfo ∧
      v.receiversComms = x.receiversComms ∧ ∀ job ∈ v.jobScheduler, job.jstate = .S4 →
      job ∈ u.jobScheduler ∨ MadeFrom env x job := by
  rw [runJobs_split] at done
  obtain ⟨x, before, rest⟩ := bind_ok.mp done
  obtain ⟨y, split, managed⟩ := bind_ok.mp rest
  have only : OnlyJobs x y := (splitJobs_ok (w := ⟨true, true⟩) rfl split).2
  have conns := manageConns_frame managed
  refine ⟨x, before, conns.sysinfo.trans only.sysinfo,
    conns.receiversComms.trans only.receiversComms, fun job member ready => ?_⟩
  rw [conns.jobScheduler] at member
  exact (splitJobs_made (tree.beforeSplit before).settled split member ready).imp_left fun old =>
    ready_beforeSplit before old ready

section Length

variable {job : Job}

theorem MadeFrom.length (made : MadeFrom env u job) :
    ∃ si used, si ∈ u.sysinfo ∧ job.jdestination = si.systemName ∧
      job.jobdata.length = paddedTo used si.systemCapacity ∧ 99 ≤ used ∧
      ((∃ q fd, q ∈ u.jobScheduler ∧ q.jstate = .S1 ∧ Joins u (fd, q, si) ∧
          measured u (fun l r => l > r) q = .ok false ∧
          measured u (fun l r => l ≤ r) q = .ok true ∧ used ≤ 114 + fd.fileData.length) ∨
        ∃ q fd capacity, q ∈ u.jobScheduler ∧ q.jstate = .S1 ∧ Joins u (fd, q, si) ∧
          measured u (fun l r => l > r) q = .ok true ∧ si.systemCapacity = some capacity ∧
          ((used : Int) ≤ capacity ∨ used + q.gap = 172)) := by
  cases made with
  | single q fd si i member start joins long short made =>
      obtain ⟨mdata, sealing, last⟩ := singleMessage_ok made
      obtain ⟨-, data, -, -, -, -, destination⟩ := messageJob_ok last
      have gap := headerGap_le (btrim q.jsource) (btrim q.jdestination) q.jpriority
      refine ⟨si, _, joins.known, destination.trans joins.destination,
        data ▸ length_createMessage (by decide) sealing, ?_, .inl ⟨q, fd, member, start, joins, long,
        short, ?_⟩⟩
      · simp only [List.length_nil]
        omega
      · simp only [List.length_nil]
        omega
  | chunk q fd si part chunk i member start joins long cut inside made =>
      obtain ⟨mdata, sealing, last⟩ := chunkMessage_ok made
      obtain ⟨-, data, -, -, -, -, destination⟩ := messageJob_ok last
      obtain ⟨same, known, large, fits⟩ := chunkInfo_mem cut inside
      have gap := headerGap_le (btrim chunk.js.jsource) (btrim chunk.js.jdestination)
        chunk.js.jpriority
      rw [same] at destination
      refine ⟨si, _, joins.known, destination.trans joins.destination,
        known ▸ data ▸ length_createMessage (by decide) sealing, ?_, .inr ⟨q, fd,
        chunk.systemCapacity, member, start, joins, long, known, .inl ?_⟩⟩
      · dsimp only
        omega
      · simp only [List.length_append, length_lpad, chunk.js.jobid.length]
        omega
  | info q fd si i member start joins long made =>
      obtain ⟨capacity, count, mdata, known, -, -, sealing, last⟩ := infoMessage_ok made
      obtain ⟨-, data, -, -, -, -, destination⟩ := messageJob_ok last
      dsimp only at known sealing data destination
      have gap := headerGap_le (btrim q.jsource) (btrim q.jdestination) q.jpriority
      refine ⟨si, _, joins.known, destination.trans joins.destination,
        known ▸ data ▸ length_createMessage (by decide) sealing, ?_, .inr ⟨q, fd, capacity, member,
        start, joins, long, known, .inr ?_⟩⟩
      · omega
      · simp only [List.length_append, length_lpad, q.jobid.length, List.length_nil, Job.gap]
        omega

end Length

end Split

section Operations

variable {db db' : Db}

structure Keeps (db db' : Db) : Prop where
  sysinfo : db'.sysinfo = db.sysinfo
  selfinfo : db'.selfinfo = db.selfinfo
  handed : ∀ row ∈ db'.receiversComms, row ∈ db.receiversComms
  ready : ∀ job ∈ db'.jobScheduler, job.jstate = .S4 → ∃ old ∈ db.jobScheduler,
    old.jstate = .S4 ∧ old.jobdata = job.jobdata ∧ old.jdestination = job.jdestination

theorem Keeps.refl (db : Db) : Keeps db db :=
  ⟨rfl, rfl, fun _ => id, fun job member ready => ⟨job, member, ready, rfl, rfl⟩⟩

theorem keeps_insert {job : Job} (other : job.jstate ≠ .S4) (done : db.insertJob job = .ok db') :
    Keeps db db' := by
  obtain ⟨rows, only, -, -⟩ := insertJob_ok done
  refine ⟨only.sysinfo, only.selfinfo, fun row => only.receiversComms ▸ id, ?_⟩
  intro row member ready
  rw [rows] at member
  rcases List.mem_append.mp member with old | new
  · exact ⟨row, old, ready, rfl, rfl⟩
  · exact absurd (List.mem_singleton.mp new ▸ ready) other

theorem keeps_update (db : Db) {condition : Job → Bool} {change : Job → Job}
    (data : ∀ job, (change job).jobdata = job.jobdata ∧
      (change job).jdestination = job.jdestination)
    (states : ∀ job, (change job).jstate = .S4 → job.jstate = .S4) :
    Keeps db (db.updateJobs condition change) := by
  refine ⟨rfl, rfl, fun _ => id, fun job member ready => ?_⟩
  obtain ⟨old, inside, rfl⟩ := List.mem_map.mp member
  refine ⟨old, inside, ?_⟩
  split at ready
  · next holds =>
      rw [if_pos holds]
      exact ⟨states old ready, (data old).1.symm, (data old).2.symm⟩
  · next fails =>
      rw [if_neg fails]
      exact ⟨ready, rfl, rfl⟩

theorem keeps_perform {op : Operation} (other : ∀ env, op ≠ .runJobs env)
    (step : db.perform op = some db') : Keeps db db' := by
  have attempt {done : Sql Db} (keeps : ∀ u, done = .ok u → Keeps db u) :
      Keeps db (db.attempt done) := by
    rcases Db.attempt_cases db done with same | ⟨u, ok, same⟩
    · rw [same]
      exact .refl db
    · rw [same]
      exact keeps u ok
  cases op with
  | runJobs env => exact absurd rfl (other env)
  | importFile file =>
      obtain rfl := Option.some.inj step
      refine attempt fun u done => ?_
      rw [importFile_ok done]
      exact ⟨rfl, rfl, fun _ => id, (Keeps.refl db).ready⟩
  | sendFile id fileName destination =>
      obtain rfl := Option.some.inj step
      refine attempt fun u done => ?_
      unfold Db.sendFile at done
      split at done
      · obtain ⟨jobdata, -, rest⟩ := bind_ok.mp done
        obtain ⟨top, -, -, inserted⟩ := insertUnderRoot_ok rest
        exact keeps_insert (by decide : JState.S ≠ .S4) inserted
      · exact pure_ok.mp done ▸ .refl db
  | updateJobPriority id priority =>
      obtain rfl := Option.some.inj step
      exact keeps_update db (fun _ => ⟨rfl, rfl⟩) fun _ ready => ready
  | storeData id fd data =>
      obtain rfl := Option.some.inj step
      refine attempt fun u done => ?_
      obtain ⟨top, -, -, inserted⟩ := insertUnderRoot_ok done
      exact keeps_insert (by decide : JState.N1 ≠ .S4) inserted
  | retrieve sc job =>
      obtain ⟨-, last⟩ : (sc, job) ∈ db.sGetInfo ∧ some (db.appendW job.jobid) = some db' := by
        simpa [Db.perform] using step
      obtain rfl := Option.some.inj last
      exact keeps_update db (fun _ => ⟨rfl, rfl⟩) fun _ same => JState.noConfusion same
  | updateStatus id status =>
      obtain rfl := Option.some.inj step
      refine keeps_update db (fun _ => ⟨rfl, rfl⟩) fun job ready => ?_
      dsimp only at ready
      split at ready
      · cases ready
      · cases ready
  | updateConns ipaddress fd status =>
      obtain rfl := Option.some.inj step
      exact ⟨rfl, rfl, fun _ => id, (Keeps.refl db).ready⟩
  | updateComms scommid =>
      obtain rfl := Option.some.inj step
      exact ⟨rfl, rfl, fun _ => id, (Keeps.refl db).ready⟩
  | deleteComms scommid =>
      obtain rfl := Option.some.inj step
      exact ⟨rfl, rfl, fun _ => id, (Keeps.refl db).ready⟩
  | getcomms rcomid =>
      obtain ⟨row, -, -, rfl⟩ := Db.perform_getcomms step
      exact ⟨rfl, rfl, fun _ member => (List.mem_filter.mp member).1, (Keeps.refl db).ready⟩
  | insertConns fd ipaddr status =>
      obtain rfl := Option.some.inj step
      obtain ⟨rows, same⟩ := Db.rInsertConns_frame db fd ipaddr status
      rw [same]
      exact ⟨rfl, rfl, fun _ => id, (Keeps.refl db).ready⟩

end Operations

end Made

end FileSharing
