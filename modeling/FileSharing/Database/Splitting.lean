import FileSharing.Database.Children
import FileSharing.Library.Groups

/-! The statements that split: which messages they make, and for which jobs. -/

namespace FileSharing

open Library RunJobs

namespace Completion

section Split

variable {env : Env} {db db' : Db} {state : JState} {rows : List (File × Job × SysInfo)}

theorem joined_job (nodup : db.jobids.Nodup) (done : joined db state = .ok rows) {js : Job}
    (member : js ∈ db.jobScheduler) (present : js.jstate = state) :
    ∃ pairs, namesakes db js = .ok pairs ∧
      rows.filter (fun row => row.2.1.jobid = js.jobid) =
        pairs.map fun (fd, si) => (fd, js, si) := by
  unfold joined at done
  obtain ⟨parts, built, rest⟩ := bind_ok.mp done
  obtain rfl := pure_ok.mp rest
  have each := mapM_ok.mp built
  simp only [bind_ok, pure_ok] at each
  obtain ⟨mine, related, equal⟩ := filter_flatten Job.jobid
    (fun row : File × Job × SysInfo => row.2.1.jobid) each
    (fun js part ⟨pairs, _, same⟩ row inside => by
      rw [← same] at inside
      obtain ⟨pair, -, rfl⟩ := List.mem_map.mp inside
      rfl) js.jobid
  have chosen : js ∈ db.jobScheduler.filter fun js => js.jstate = state :=
    List.mem_filter.mpr ⟨member, by simpa using present⟩
  have ids : ((db.jobScheduler.filter fun js => js.jstate = state).map Job.jobid).Nodup :=
    nodup.sublist (List.filter_sublist.map Job.jobid)
  rw [filter_key Job.jobid ids chosen] at related
  obtain ⟨part, tail, ⟨pairs, found, same⟩, none, rfl⟩ := List.forall₂_cons_left_iff.mp related
  obtain rfl := List.forall₂_nil_left_iff.mp none
  exact ⟨pairs, found, by rw [equal, same, List.flatten_cons, List.flatten_nil, List.append_nil]⟩

theorem joined_mem (done : joined db state = .ok rows) {row : File × Job × SysInfo}
    (member : row ∈ rows) : row.2.1 ∈ db.jobScheduler ∧ row.2.1.jstate = state := by
  unfold joined at done
  obtain ⟨parts, built, rest⟩ := bind_ok.mp done
  obtain rfl := pure_ok.mp rest
  obtain ⟨part, inside, within⟩ := List.mem_flatten.mp member
  obtain ⟨js, present, made⟩ := forall₂_mem_right (mapM_ok.mp built) inside
  obtain ⟨pairs, -, same⟩ := bind_ok.mp made
  rw [← pure_ok.mp same] at within
  obtain ⟨pair, -, rfl⟩ := List.mem_map.mp within
  simpa using List.mem_filter.mp present

structure MadeFor (db : Db) (state : JState) (type : Text) (job : Job) : Prop where
  jstate : job.jstate = .S4
  type : messageType job.jobdata = lpad type 5
  parent : ∃ js ∈ db.jobScheduler, js.jstate = state ∧ job.jparentJobid = js.jobid

theorem singleJob_made (done : singleJob env db = .ok db') :
    ∃ fresh, db'.jobScheduler = db.jobScheduler ++ fresh ∧
      ∀ job ∈ fresh, MadeFor db .S3 (ascii "1") job := by
  unfold singleJob at done
  obtain ⟨rows, read, rest⟩ := bind_ok.mp done
  obtain ⟨jobs, built, inserted⟩ := bind_ok.mp rest
  refine ⟨jobs, (insertJobs_ok inserted).1, fun job member => ?_⟩
  obtain ⟨row, inside, made⟩ := forall₂_mem_right (mapM_ok.mp built) member
  obtain ⟨mdata, sealing, last⟩ := singleMessage_ok made
  obtain ⟨-, data, state, -, -, parent, -⟩ := messageJob_ok last
  obtain ⟨present, known⟩ := joined_mem read (mem_zipIdx_left inside)
  refine ⟨state, ?_, _, present, known, parent⟩
  rw [data]
  exact messageType_createMessage (by decide) sealing

theorem ceilDiv_ok {length size count : Int} (done : ceilDiv length size = .ok count) :
    size ≠ 0 ∧ count = -(Int.fdiv (-length) size) := by
  unfold ceilDiv at done
  split at done
  · cases done
  · next nonzero => exact ⟨nonzero, (Except.ok.inj done).symm⟩

theorem chunkInfo_ok {fd : File} {js : Job} {si : SysInfo} {part : List Chunk}
    (done : chunkInfo (fd, js, si) = .ok part) : (∀ chunk ∈ part, chunk.js = js) ∧
      ∀ capacity, si.systemCapacity = some capacity →
        ∃ count, ceilDiv fd.fileData.length (capacity - 172) = .ok count ∧
          part.length = count.toNat := by
  unfold chunkInfo at done
  obtain ⟨data, read, rest⟩ := bind_ok.mp done
  obtain rfl := (loGet_ok read).1
  cases known : si.systemCapacity with
  | none =>
      rw [known] at rest
      obtain rfl := pure_ok.mp rest
      exact ⟨by simp, nofun⟩
  | some capacity =>
      rw [known] at rest
      obtain ⟨size, room, rest⟩ := bind_ok.mp rest
      obtain ⟨count, quotient, last⟩ := bind_ok.mp rest
      have related := mapM_ok.mp last
      refine ⟨fun chunk member => ?_, fun capacity' same => ?_⟩
      · obtain ⟨idx, -, made⟩ := forall₂_mem_right related member
        obtain ⟨data, -, same⟩ := bind_ok.mp made
        rw [← pure_ok.mp same]
      · obtain rfl := Option.some.inj same
        rw [(int4_ok room).1] at quotient
        exact ⟨count, quotient, by rw [← related.length_eq, List.length_range]⟩

theorem chunkJobs_made (nodup : db.jobids.Nodup) (done : chunkJobs env db = .ok db') :
    ∃ fresh, db'.jobScheduler = db.jobScheduler ++ fresh ∧
      (∀ job ∈ fresh, MadeFor db .S2 (ascii "2") job) ∧
      ∀ js ∈ db.jobScheduler, js.jstate = .S2 → ∃ pairs, namesakes db js = .ok pairs ∧
        ∀ fd si, pairs = [(fd, si)] → ∃ part numbers, chunkInfo (fd, js, si) = .ok part ∧
          numbers.length = part.length ∧
          (part.zip numbers).mapM (chunkMessage env) = .ok (childrenOf fresh js.jobid) := by
  unfold chunkJobs at done
  obtain ⟨rows, read, rest⟩ := bind_ok.mp done
  obtain ⟨chunks, cut, rest⟩ := bind_ok.mp rest
  obtain ⟨jobs, built, inserted⟩ := bind_ok.mp rest
  have cuts := mapM_ok.mp cut
  have each := mapM_ok.mp built
  refine ⟨jobs, (insertJobs_ok inserted).1, fun job member => ?_, ?_⟩
  · obtain ⟨⟨chunk, i⟩, inside, made⟩ := forall₂_mem_right each member
    obtain ⟨mdata, sealing, last⟩ := chunkMessage_ok made
    obtain ⟨-, data', state, -, -, parent, -⟩ := messageJob_ok last
    obtain ⟨part, listed, within⟩ := List.mem_flatten.mp (mem_zipIdx_left inside)
    obtain ⟨⟨fd, js, si⟩, source, cutting⟩ := forall₂_mem_right cuts listed
    obtain ⟨present, known⟩ := joined_mem read source
    refine ⟨state, ?_, js, present, known, ?_⟩
    · rw [data']
      exact messageType_createMessage (by decide) sealing
    · rw [parent, (chunkInfo_ok cutting).1 chunk within]
  · intro js member present
    obtain ⟨pairs, found, group⟩ := joined_job nodup read member present
    refine ⟨pairs, found, ?_⟩
    rintro fd si rfl
    have messages := filter_related (fun p : Chunk × Nat => p.1.js.jobid)
      Job.jparentJobid each (fun p job made => by
        obtain ⟨mdata, -, last⟩ := chunkMessage_ok made
        exact (messageJob_ok last).2.2.2.2.2.1) js.jobid
    obtain ⟨mine, related, equal⟩ := filter_flatten
      (fun row : File × Job × SysInfo => row.2.1.jobid) (fun chunk : Chunk => chunk.js.jobid) cuts
      (fun row part made chunk inside => by
        obtain ⟨fd, js, si⟩ := row
        rw [(chunkInfo_ok made).1 chunk inside]) js.jobid
    rw [group, List.map_singleton] at related
    obtain ⟨part, tail, made, none, rfl⟩ := List.forall₂_cons_left_iff.mp related
    obtain rfl := List.forall₂_nil_left_iff.mp none
    rw [List.flatten_cons, List.flatten_nil, List.append_nil] at equal
    -- the numbered chunks of the job
    let mine := chunks.flatten.zipIdx.filter fun p => p.1.js.jobid = js.jobid
    have first : mine.map Prod.fst = part := by
      rw [← equal]
      exact filter_zipIdx (fun chunk : Chunk => chunk.js.jobid) chunks.flatten js.jobid
    have numbered : part.zip (mine.map Prod.snd) = mine := by
      rw [← first]
      exact (List.zip_of_prod rfl rfl).symm
    refine ⟨part, mine.map Prod.snd, made, ?_, ?_⟩
    · rw [← first, List.length_map, List.length_map]
    · rw [numbered]
      exact mapM_ok.mpr messages

def Countable (length capacity : Int) : Prop := 172 < capacity ∨ length < 172 - capacity

theorem ceilDiv_range {length capacity count : Int} (nonneg : 0 ≤ length)
    (countable : Countable length capacity)
    (done : ceilDiv length (capacity - 172) = .ok count) : 0 ≤ count ∧ count ≤ length := by
  obtain ⟨nonzero, rfl⟩ := ceilDiv_ok done
  rcases countable with high | low
  · rw [Int.fdiv_eq_ediv_of_nonneg _ (by omega)]
    have upper : -length / (capacity - 172) ≤ 0 :=
      Int.ediv_nonpos_of_nonpos_of_neg (by omega) (by omega)
    have lower : -length ≤ -length / (capacity - 172) := by
      rw [Int.le_ediv_iff_mul_le (by omega)]
      nlinarith
    omega
  · have flipped : Int.fdiv (-length) (capacity - 172) = 0 := by
      rw [show capacity - 172 = -(172 - capacity) by omega, Int.neg_fdiv_neg,
        Int.fdiv_eq_ediv_of_nonneg _ (by omega), Int.ediv_eq_zero_of_lt nonneg low]
    omega

theorem chunkCount_info {now : Timestamp} {id : Uuid} {js : Uuid} {length capacity count : Int}
    {size source destination priority : Text} {mdata : Bytea} (width : size.length = 12)
    (hsrc : FiveBytes source) (hdst : FiveBytes destination) (hprio : FiveBytes priority)
    (low : 0 ≤ count) (high : count ≤ length) (bounded : length ≤ maxField)
    (done : createMessage now id.text (ascii "3") (js.text ++ size ++ lpad (intText count) 10) []
      source destination priority (some capacity) = .ok mdata) :
    chunkCount mdata = .ok count := by
  have total : (js.text ++ size ++ lpad (intText count) 10).length = 58 := by
    rw [List.length_append, List.length_append, js.length, width, length_lpad]
  have fits : (intText count).length ≤ 10 := by
    unfold intText
    rw [if_neg (by omega)]
    unfold maxField at bounded
    exact length_natText_le (by decide) (by omega)
  rw [chunkCount, content_createMessage (by decide) hsrc hdst hprio done 163 10 (by decide)
    (by rw [total])]
  rw [substr_append_right (by rw [List.length_append, js.length, width]; decide), List.length_append,
    js.length, width, substr_whole (length_lpad _ _), encode_plain ((plain_intText count).lpad 10)]
  unfold maxField at bounded
  exact int4in_lpad fits (by unfold int4Min; omega) (by unfold int4Max; omega)

theorem infoJobs_made (nodup : db.jobids.Nodup) (done : infoJobs env db = .ok db') :
    ∃ fresh, db'.jobScheduler = db.jobScheduler ++ fresh ∧
      (∀ job ∈ fresh, MadeFor db .S2 (ascii "3") job) ∧
      ∀ js ∈ db.jobScheduler, js.jstate = .S2 → ∀ fd si, namesakes db js = .ok [(fd, si)] →
        ∃ number info, infoMessage env ((fd, js, si), number) = .ok info ∧
          childrenOf fresh js.jobid = [info] := by
  unfold infoJobs at done
  obtain ⟨rows, read, rest⟩ := bind_ok.mp done
  obtain ⟨jobs, built, inserted⟩ := bind_ok.mp rest
  have each := mapM_ok.mp built
  refine ⟨jobs, (insertJobs_ok inserted).1, fun job member => ?_, ?_⟩
  · obtain ⟨row, inside, made⟩ := forall₂_mem_right each member
    obtain ⟨capacity, count, mdata, -, -, -, sealing, last⟩ := infoMessage_ok made
    obtain ⟨-, data, state, -, -, parent, -⟩ := messageJob_ok last
    obtain ⟨present, known⟩ := joined_mem read (mem_zipIdx_left inside)
    refine ⟨state, ?_, _, present, known, parent⟩
    rw [data]
    exact messageType_createMessage (by decide) sealing
  · intro js member present fd si pair
    obtain ⟨pairs, found, group⟩ := joined_job nodup read member present
    obtain rfl := Except.ok.inj (found.symm.trans pair)
    have messages := filter_related (fun p : (File × Job × SysInfo) × Nat => p.1.2.1.jobid)
      Job.jparentJobid each (fun p job made => by
        obtain ⟨_, _, _, -, -, -, -, last⟩ := infoMessage_ok made
        exact (messageJob_ok last).2.2.2.2.2.1) js.jobid
    have numbered := filter_zipIdx (fun row : File × Job × SysInfo => row.2.1.jobid) rows js.jobid
    rw [group, List.map_singleton] at numbered
    obtain ⟨⟨row, i⟩, single, same⟩ := List.map_eq_singleton_iff.mp numbered
    obtain rfl : row = (fd, js, si) := same
    rw [single] at messages
    obtain ⟨info, tail, made, none, shape⟩ := List.forall₂_cons_left_iff.mp messages
    obtain rfl := List.forall₂_nil_left_iff.mp none
    exact ⟨i, info, made, shape⟩

theorem infoMessage_count {fd : File} {js info : Job} {si : SysInfo} {number : Nat} {capacity : Int}
    (made : infoMessage env ((fd, js, si), number) = .ok info)
    (known : si.systemCapacity = some capacity)
    (countable : Countable fd.fileData.length capacity) (hsrc : FiveBytes (btrim js.jsource))
    (hdst : FiveBytes (btrim js.jdestination)) (hprio : FiveBytes js.jpriority) :
    ∃ count, ceilDiv fd.fileData.length (capacity - 172) = .ok count ∧ 0 ≤ count ∧
      chunkCount info.jobdata = .ok count := by
  obtain ⟨capacity', count, mdata, known', quotient, small, sealing, last⟩ := infoMessage_ok made
  obtain rfl := Option.some.inj (known.symm.trans known')
  obtain ⟨low, high⟩ := ceilDiv_range (by omega) countable quotient
  refine ⟨count, quotient, low, ?_⟩
  rw [(messageJob_ok last).2.1]
  exact chunkCount_info (length_lpad _ _) hsrc hdst hprio low high (by exact_mod_cast small) sealing

theorem measured_frame (only : OnlyJobs db db') : measured db' = measured db := by
  funext test job
  simp only [measured, only.files, only.sysinfo]

theorem namesakes_frame (only : OnlyJobs db db') {js js' : Job} (data : js'.jobdata = js.jobdata)
    (destination : js'.jdestination = js.jdestination) : namesakes db' js' = namesakes db js := by
  simp only [namesakes, only.files, only.sysinfo, data, destination]

theorem knownName_frame (only : OnlyJobs db db') : knownName db' = knownName db := by
  funext name
  simp only [knownName, only.sysinfo]

theorem measured_known {test : Int → Int → Bool} {job : Job}
    (holds : measured db test job = .ok true) : knownName db job.jdestination = true := by
  unfold measured at holds
  obtain ⟨names, read, found⟩ := bind_ok.mp holds
  have member : some job.jobdata ∈ names := by simpa using pure_ok.mp found
  obtain ⟨⟨f, si⟩, inside, -⟩ := forall₂_mem_right (mapM_ok.mp read) member
  obtain ⟨f', -, pair⟩ := List.mem_flatMap.mp inside
  obtain ⟨si', chosen, -⟩ := List.mem_map.mp pair
  obtain ⟨present, same⟩ := List.mem_filter.mp chosen
  exact List.any_eq_true.mpr ⟨si', present, by simpa [eq_comm] using same⟩

structure OnlyState (old new : Job) : Prop where
  jobid : new.jobid = old.jobid
  jparentJobid : new.jparentJobid = old.jparentJobid
  jobdata : new.jobdata = old.jobdata

theorem OnlyState.trans {a b c : Job} (second : OnlyState b c) (first : OnlyState a b) :
    OnlyState a c :=
  ⟨second.jobid.trans first.jobid, second.jparentJobid.trans first.jparentJobid,
    second.jobdata.trans first.jobdata⟩

inductive Fate (db : Db) (job new : Job) : Prop
  | same (stays : new = job)
  | split (state : job.jstate = .S1) (holds : measured db (fun l r => l > r) job = .ok true)
      (moved : new = { job with jstate := .S2W })
  | single (state : job.jstate = .S1) (moved : new = { job with jstate := .S3W })

structure SplitRows (db db' : Db) (fate : Job → Job) (singles chunks infos : List Job) : Prop where
  rows : db'.jobScheduler = db.jobScheduler.map fate ++ (singles ++ chunks ++ infos)
  fates : ∀ job ∈ db.jobScheduler, Fate db job (fate job)
  kept : ∀ job, OnlyState job (fate job)
  single : ∀ row ∈ singles, row.jstate = .S4 ∧ ∃ q ∈ db.jobScheduler,
    (fate q).jstate = .S3W ∧ q.jstate = .S1 ∧ row.jparentJobid = q.jobid
  chunk : ∀ row ∈ chunks, (row.jstate = .S4 ∧ isInfo row = false) ∧ ∃ q ∈ db.jobScheduler,
    (fate q).jstate = .S2W ∧ q.jstate = .S1 ∧ row.jparentJobid = q.jobid
  info : ∀ row ∈ infos, (row.jstate = .S4 ∧ isInfo row = true) ∧ ∃ q ∈ db.jobScheduler,
    (fate q).jstate = .S2W ∧ q.jstate = .S1 ∧ row.jparentJobid = q.jobid
  counted : ∀ q ∈ db.jobScheduler, q.jstate = .S1 → (fate q).jstate = .S2W →
    ∃ pairs, namesakes db q = .ok pairs ∧ ∀ fd si capacity, pairs = [(fd, si)] →
    si.systemCapacity = some capacity → Countable fd.fileData.length capacity → FiveBytes (btrim q.jsource) →
    FiveBytes (btrim q.jdestination) → FiveBytes q.jpriority →
    ∃ info count, childrenOf infos q.jobid = [info] ∧ chunkCount info.jobdata = .ok count ∧
      ((childrenOf chunks q.jobid).length : Int) = count

def CutRows (env : Env) (db : Db) (fate : Job → Job) (chunks infos : List Job) : Prop :=
  ∀ q ∈ db.jobScheduler, q.jstate = .S1 → (fate q).jstate = .S2W →
    ∃ pairs, namesakes db q = .ok pairs ∧ ∀ fd si, pairs = [(fd, si)] →
    ∃ part numbers number info, chunkInfo (fd, { q with jstate := .S2 }, si) = .ok part ∧
      numbers.length = part.length ∧
      (part.zip numbers).mapM (chunkMessage env) = .ok (childrenOf chunks q.jobid) ∧
      infoMessage env ((fd, { q with jstate := .S2 }, si), number) = .ok info ∧
      childrenOf infos q.jobid = [info]

theorem CutRows.counted {fate : Job → Job} {chunks infos : List Job}
    (cut : CutRows env db fate chunks infos) {q : Job} (member : q ∈ db.jobScheduler)
    (start : q.jstate = .S1) (waits : (fate q).jstate = .S2W) :
    ∃ pairs, namesakes db q = .ok pairs ∧ ∀ fd si capacity, pairs = [(fd, si)] →
    si.systemCapacity = some capacity → Countable fd.fileData.length capacity →
    FiveBytes (btrim q.jsource) → FiveBytes (btrim q.jdestination) → FiveBytes q.jpriority →
    ∃ info count, childrenOf infos q.jobid = [info] ∧ chunkCount info.jobdata = .ok count ∧
      ((childrenOf chunks q.jobid).length : Int) = count := by
  obtain ⟨pairs, found, rows⟩ := cut q member start waits
  refine ⟨pairs, found, fun fd si capacity single known countable hsrc hdst hprio => ?_⟩
  obtain ⟨part, numbers, number, info, cutting, enough, made, told, shape⟩ := rows fd si single
  obtain ⟨count, quotient, low, parsed⟩ := infoMessage_count told known countable hsrc hdst hprio
  obtain ⟨count', quotient', length⟩ := (chunkInfo_ok cutting).2 capacity known
  obtain rfl := Except.ok.inj (quotient.symm.trans quotient')
  refine ⟨info, count, shape, parsed, ?_⟩
  rw [← (mapM_ok.mp made).length_eq, List.length_zip, enough, Nat.min_self, length,
    Int.toNat_of_nonneg low]

def splitting (db : Db) (job : Job) : Job :=
  if (if job.jstate = .S1 then measured db (fun l r => l > r) job else return false) = .ok true
  then { job with jstate := .S2 } else job

def singling (db : Db) (job : Job) : Job :=
  if (if job.jstate = .S1 then measured db (fun l r => l ≤ r) job else return false) = .ok true
  then { job with jstate := .S3 } else job

def awaiting (db : Db) (job : Job) : Job :=
  let job := if job.jstate = .S2 && knownName db job.jdestination
    then { job with jstate := .S2W } else job
  if job.jstate = .S3 && knownName db job.jdestination then { job with jstate := .S3W } else job

theorem onlyState_ite {job : Job} (condition : Prop) [Decidable condition] (t : JState) :
    OnlyState job (if condition then { job with jstate := t } else job) := by
  by_cases holds : condition
  · rw [if_pos holds]
    exact ⟨rfl, rfl, rfl⟩
  · rw [if_neg holds]
    exact ⟨rfl, rfl, rfl⟩

theorem middle_kept (db : Db) (job : Job) : OnlyState job (singling db (splitting db job)) :=
  (onlyState_ite _ _ : OnlyState _ (singling db _)).trans (onlyState_ite _ _)

theorem awaiting_kept (db : Db) (job : Job) : OnlyState job (awaiting db job) :=
  (onlyState_ite _ _ : OnlyState _ (awaiting db job)).trans (onlyState_ite _ _)

theorem awaitChildren_rows (db : Db) :
    (awaitChildren db).jobScheduler = db.jobScheduler.map (awaiting db) := by
  rw [awaitChildren, Db.updateJobs, Db.updateJobs, List.map_map]
  rfl

/-- Where a job is before `awaitChildren`, and after. -/
theorem split_cases {job : Job} (calm : ¬ Transient job.jstate) :
    (singling db (splitting db job) = job ∧
      awaiting db (singling db (splitting db job)) = job) ∨
    (job.jstate = .S1 ∧ measured db (fun l r => l > r) job = .ok true ∧
      singling db (splitting db job) = { job with jstate := .S2 } ∧
      awaiting db (singling db (splitting db job)) = { job with jstate := .S2W }) ∨
    (job.jstate = .S1 ∧ measured db (fun l r => l > r) job ≠ .ok true ∧
      measured db (fun l r => l ≤ r) job = .ok true ∧
      singling db (splitting db job) = { job with jstate := .S3 } ∧
      awaiting db (singling db (splitting db job)) = { job with jstate := .S3W }) := by
  have quiet : job.jstate ≠ .S2 ∧ job.jstate ≠ .S3 := not_or.mp calm
  by_cases start : job.jstate = .S1
  · by_cases long : measured db (fun l r => l > r) job = .ok true
    · have first : splitting db job = { job with jstate := .S2 } := by
        simp [splitting, start, long]
      have second : singling db (splitting db job) = { job with jstate := .S2 } := by
        simp [first, singling, pure, Except.pure]
      refine .inr (.inl ⟨start, long, second, ?_⟩)
      simp [second, awaiting, measured_known long]
    · have first : splitting db job = job := by simp [splitting, start, long]
      by_cases short : measured db (fun l r => l ≤ r) job = .ok true
      · have second : singling db (splitting db job) = { job with jstate := .S3 } := by
          simp [first, singling, start, short]
        refine .inr (.inr ⟨start, long, short, second, ?_⟩)
        simp [second, awaiting, measured_known short]
      · have second : singling db (splitting db job) = job := by
          simp [first, singling, start, short]
        refine .inl ⟨second, ?_⟩
        simp [second, awaiting, start]
  · have first : splitting db job = job := by simp [splitting, start, pure, Except.pure]
    have second : singling db (splitting db job) = job := by
      simp [first, singling, start, pure, Except.pure]
    refine .inl ⟨second, ?_⟩
    simp [second, awaiting, quiet]

theorem waits_split {job : Job} (calm : ¬ Transient job.jstate)
    (state : (singling db (splitting db job)).jstate = .S2) :
    job.jstate = .S1 ∧ (awaiting db (singling db (splitting db job))).jstate = .S2W := by
  rcases split_cases calm with ⟨h, -⟩ | ⟨start, -, -, later⟩ | ⟨-, -, -, h, -⟩
  · rw [h] at state
    exact absurd (.inl state) calm
  · exact ⟨start, by rw [later]⟩
  · rw [h] at state
    cases state

theorem waits_single {job : Job} (calm : ¬ Transient job.jstate)
    (state : (singling db (splitting db job)).jstate = .S3) :
    job.jstate = .S1 ∧ (awaiting db (singling db (splitting db job))).jstate = .S3W := by
  rcases split_cases calm with ⟨h, -⟩ | ⟨-, -, h, -⟩ | ⟨start, -, -, -, later⟩
  · rw [h] at state
    exact absurd (.inr state) calm
  · rw [h] at state
    cases state
  · exact ⟨start, by rw [later]⟩

theorem singling_frame (only : OnlyJobs db db') : singling db' = singling db := by
  funext job
  simp only [singling, measured_frame only]

theorem middle_rows {a b : Db} (split : startSplit db = .ok a) (single : startSingle a = .ok b) :
    b.jobScheduler = db.jobScheduler.map fun job => singling db (splitting db job) := by
  obtain ⟨only, -, rowsA⟩ := updateJobsM_ok split
  rw [(updateJobsM_ok single).2.2, rowsA, List.map_map]
  exact List.map_congr_left fun job _ => congrFun (singling_frame only) (splitting db job)

theorem awaiting_frame (only : OnlyJobs db db') : awaiting db' = awaiting db := by
  funext job
  simp only [awaiting, knownName_frame only]

theorem map_awaiting {fresh : List Job} (ready : ∀ row ∈ fresh, row.jstate = .S4) :
    fresh.map (awaiting db) = fresh := by
  refine (List.map_congr_left fun row member => ?_).trans (List.map_id fresh)
  simp [awaiting, ready row member]

theorem splitJobs_waits (done : splitJobs env db = .ok db') {job : Job}
    (member : job ∈ db.jobScheduler) (start : job.jstate = .S1)
    (long : measured db (fun l r => l > r) job = .ok true) :
    { job with jstate := .S2W } ∈ db'.jobScheduler := by
  unfold splitJobs at done
  obtain ⟨a, split, rest⟩ := bind_ok.mp done
  obtain ⟨b, single, rest⟩ := bind_ok.mp rest
  obtain ⟨c, singled, rest⟩ := bind_ok.mp rest
  obtain ⟨d, chunked, rest⟩ := bind_ok.mp rest
  obtain ⟨e, informed, last⟩ := bind_ok.mp rest
  obtain rfl := pure_ok.mp last
  obtain ⟨onlyA, -, rowsA⟩ := updateJobsM_ok split
  obtain ⟨onlyB, -, rowsB⟩ := updateJobsM_ok single
  obtain ⟨evolvesC, onlyC⟩ := singleJob_ok (w := quiet) singled
  obtain ⟨evolvesD, onlyD⟩ := chunkJobs_ok (w := quiet) chunked
  obtain ⟨evolvesE, onlyE⟩ := infoJobs_ok (w := quiet) informed
  have first : { job with jstate := .S2 } ∈ a.jobScheduler := by
    rw [rowsA]
    exact List.mem_map.mpr ⟨job, member, by simp [start, long]⟩
  have second : { job with jstate := .S2 } ∈ b.jobScheduler := by
    rw [rowsB]
    exact List.mem_map.mpr ⟨_, first, by simp [pure, Except.pure]⟩
  have stuck (t : JState) : ¬ Promote quiet .S2 t := by
    intro step
    cases step with
    | awaitSplit off => cases off
  have third : { job with jstate := .S2 } ∈ e.jobScheduler :=
    evolvesE.mem_of_stuck (evolvesD.mem_of_stuck (evolvesC.mem_of_stuck second stuck) stuck) stuck
  have only := (((onlyA.trans onlyB).trans onlyC).trans onlyD).trans onlyE
  rw [awaitChildren_rows, awaiting_frame only]
  exact List.mem_map.mpr ⟨_, third, by simp [awaiting, measured_known long]⟩

theorem splitJobs_rows (keys : db.Keys) (calm : ∀ job ∈ db.jobScheduler, ¬ Transient job.jstate)
    (done : splitJobs env db = .ok db') :
    ∃ fate singles chunks infos, SplitRows db db' fate singles chunks infos ∧
      CutRows env db fate chunks infos := by
  unfold splitJobs at done
  obtain ⟨a, split, rest⟩ := bind_ok.mp done
  obtain ⟨b, single, rest⟩ := bind_ok.mp rest
  obtain ⟨c, singled, rest⟩ := bind_ok.mp rest
  obtain ⟨d, chunked, rest⟩ := bind_ok.mp rest
  obtain ⟨e, informed, last⟩ := bind_ok.mp rest
  obtain rfl := pure_ok.mp last
  obtain ⟨onlyA, -, rowsA⟩ := updateJobsM_ok split
  obtain ⟨onlyB, -, rowsB⟩ := updateJobsM_ok single
  obtain ⟨evolvesC, onlyC⟩ := singleJob_ok (w := ⟨true, true⟩) singled
  obtain ⟨evolvesD, onlyD⟩ := chunkJobs_ok (w := ⟨true, true⟩) chunked
  obtain ⟨-, onlyE⟩ := infoJobs_ok (w := ⟨true, true⟩) informed
  have keysA := (evolves_startSplit (w := ⟨true, true⟩) rfl split :
    Evolves _ (fun _ => False) _ _).1 keys
  have keysB := (evolves_startSingle (w := ⟨true, true⟩) rfl single :
    Evolves _ (fun _ => False) _ _).1 keysA
  have keysC := evolvesC.1 keysB
  have keysD := evolvesD.1 keysC
  have upToB : OnlyJobs db b := onlyA.trans onlyB
  have upToC : OnlyJobs db c := upToB.trans onlyC
  have upToD : OnlyJobs db d := upToC.trans onlyD
  obtain ⟨singles, splitC, madeC⟩ := singleJob_made singled
  obtain ⟨chunks, splitD, madeD, countD⟩ := chunkJobs_made keysC.jobids chunked
  obtain ⟨infos, splitE, madeE, countE⟩ := infoJobs_made keysD.jobids informed
  let mid (job : Job) : Job := singling db (splitting db job)
  have middle : b.jobScheduler = db.jobScheduler.map mid := middle_rows split single
  have readyC : ∀ row ∈ singles, row.jstate = .S4 := fun row member => (madeC row member).jstate
  have readyD : ∀ row ∈ chunks, row.jstate = .S4 := fun row member => (madeD row member).jstate
  have readyE : ∀ row ∈ infos, row.jstate = .S4 := fun row member => (madeE row member).jstate
  -- a parent in a transient state was there before, in S-1
  have origin {fresh : List Job} (ready : ∀ row ∈ fresh, row.jstate = .S4) {js : Job}
      (member : js ∈ b.jobScheduler ++ fresh) (other : js.jstate ≠ .S4) :
      ∃ q ∈ db.jobScheduler, mid q = js := by
    rcases List.mem_append.mp member with old | new
    · exact List.mem_map.mp (middle ▸ old)
    · exact absurd (ready js new) other
  have parentS2 {fresh : List Job} (ready : ∀ row ∈ fresh, row.jstate = .S4) {js : Job}
      (member : js ∈ b.jobScheduler ++ fresh) (state : js.jstate = .S2) :
      ∃ q ∈ db.jobScheduler, (awaiting db (mid q)).jstate = .S2W ∧ q.jstate = .S1 ∧
        js.jobid = q.jobid := by
    obtain ⟨q, inside, rfl⟩ := origin ready member (by simp [state])
    obtain ⟨start, waits⟩ := waits_split (calm q inside) state
    exact ⟨q, inside, waits, start, (middle_kept db q).jobid⟩
  have parentS3 {js : Job} (member : js ∈ b.jobScheduler) (state : js.jstate = .S3) :
      ∃ q ∈ db.jobScheduler, (awaiting db (mid q)).jstate = .S3W ∧ q.jstate = .S1 ∧
        js.jobid = q.jobid := by
    obtain ⟨q, inside, rfl⟩ := List.mem_map.mp (middle ▸ member)
    obtain ⟨start, waits⟩ := waits_single (calm q inside) state
    exact ⟨q, inside, waits, start, (middle_kept db q).jobid⟩
  have shapeD : d.jobScheduler = b.jobScheduler ++ (singles ++ chunks) := by
    rw [splitD, splitC, List.append_assoc]
  have readyCD : ∀ row ∈ singles ++ chunks, row.jstate = .S4 := fun row member =>
    (List.mem_append.mp member).elim (readyC row) (readyD row)
  have cut : CutRows env db (fun job => awaiting db (mid job)) chunks infos := by
    intro q member start waits
    dsimp only at waits
    have moved : { q with jstate := .S2 } ∈ b.jobScheduler := by
      rcases split_cases (calm q member) with ⟨-, h⟩ | ⟨-, -, h, -⟩ | ⟨-, -, -, -, h⟩
      · rw [show awaiting db (mid q) = q from h, start] at waits
        cases waits
      · rw [middle]
        exact List.mem_map.mpr ⟨q, member, h⟩
      · rw [show awaiting db (mid q) = { q with jstate := .S3W } from h] at waits
        cases waits
    obtain ⟨pairs, found, rows⟩ := countD { q with jstate := .S2 }
      (splitC ▸ List.mem_append_left _ moved) rfl
    have pair : namesakes db q = .ok pairs := by
      rw [← found]
      exact (namesakes_frame upToC rfl rfl).symm
    refine ⟨pairs, pair, ?_⟩
    rintro fd si rfl
    have pairD : namesakes d { q with jstate := .S2 } = .ok [(fd, si)] := by
      rw [← pair]
      exact namesakes_frame upToD rfl rfl
    obtain ⟨part, numbers, cutting, enough, made⟩ := rows fd si rfl
    obtain ⟨number, info, told, shape⟩ := countE { q with jstate := .S2 }
      (shapeD ▸ List.mem_append_left _ moved) rfl fd si pairD
    exact ⟨part, numbers, number, info, cutting, enough, made, told, shape⟩
  refine ⟨fun job => awaiting db (mid job), singles, chunks, infos, ?_, cut⟩
  constructor
  · have ready : ∀ row ∈ singles ++ chunks ++ infos, row.jstate = .S4 := fun row member =>
      (List.mem_append.mp member).elim (readyCD row) (readyE row)
    rw [awaitChildren_rows, awaiting_frame (upToD.trans onlyE), splitE, shapeD, List.append_assoc,
      List.map_append, map_awaiting ready, middle, List.map_map]
    rfl
  · intro job member
    rcases split_cases (calm job member) with ⟨-, h⟩ | ⟨start, long, -, h⟩ | ⟨start, -, -, -, h⟩
    · exact .same h
    · exact .split start long h
    · exact .single start h
  · intro job
    exact (awaiting_kept db _).trans (middle_kept db job)
  · intro row member
    obtain ⟨ready, -, js, inside, state, parent⟩ := madeC row member
    obtain ⟨q, present, waits, start, same⟩ := parentS3 inside state
    exact ⟨ready, q, present, waits, start, parent.trans same⟩
  · intro row member
    obtain ⟨ready, type, js, inside, state, parent⟩ := madeD row member
    obtain ⟨q, present, waits, start, same⟩ := parentS2 readyC (splitC ▸ inside) state
    refine ⟨⟨ready, ?_⟩, q, present, waits, start, parent.trans same⟩
    rw [isInfo, type]
    decide
  · intro row member
    obtain ⟨ready, type, js, inside, state, parent⟩ := madeE row member
    obtain ⟨q, present, waits, start, same⟩ := parentS2 readyCD (shapeD ▸ inside) state
    refine ⟨⟨ready, ?_⟩, q, present, waits, start, parent.trans same⟩
    rw [isInfo, type]
    decide
  · exact fun q member start waits => cut.counted member start waits

end Split

end Completion

end FileSharing
