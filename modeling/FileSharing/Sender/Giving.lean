import FileSharing.Library.Memory
import FileSharing.Sender.Conservation

/-! `give_data_to_sender` with every outcome of its database calls, on the bytes of the data
block. -/

namespace FileSharing

open Library

namespace Giving

def bmapSize : Nat := totalPartitions / 8

def dpartitionSize : Nat := messageSize + 46

def bitmap (m : Memory) : Block Unit := ⟨fun i => (m i).toBitVec, fun _ => none⟩

/-- `memcpy(block, &bmap, bmap_size)`. -/
def storeBitmap (m : Memory) (bits : Block Unit) : Memory := fun a =>
  if a < bmapSize then ⟨bits.bmap a⟩ else m a

def toggleBit (idx : Nat) (m : Memory) : Memory := storeBitmap m ((bitmap m).toggleBit idx)

def blkptr (subblockPosition : Nat) : Nat := bmapSize + subblockPosition * dpartitionSize

def intBytes (n : Int) : Bytea :=
  (List.range 4).map fun k => ⟨(BitVec.ofInt 32 n).extractLsb' (8 * k) 8⟩

inductive Query (α : Type) where
  | failed
  | empty
  | row (a : α)

/-- The outcomes of the calls: `true` is success. `commit` fails if the server aborts. -/
structure Calls where
  begin : Bool
  getInfo : Query (SendingConn × Job)
  getData : Query Unit
  updateJobStatus1 : Bool
  commit : Bool

structure Calls.Succeed (calls : Calls) : Prop where
  begin : calls.begin = true
  getInfo : ∃ row, calls.getInfo = .row row
  getData : ∃ row, calls.getData = .row row
  updateJobStatus1 : calls.updateJobStatus1 = true
  commit : calls.commit = true

def Calls.Listed (calls : Calls) (db : Db) : Prop :=
  ∀ row, calls.getInfo = .row row → row ∈ db.sGetInfo

structure State where
  datas : Memory
  semLockSigs : Nat
  db : Db

/-- The fields of `send_message` at 0, 4, 8 and 45. -/
def putInfo (m : Memory) (base : Nat) (sc : SendingConn) (js : Job) : Memory :=
  copyTo (copyTo m (base + 4) (intBytes (SenderSide.atoi sc.sfd))) (base + 8) (js.jobid.text ++ [0])

def putData (m : Memory) (base : Nat) (js : Job) : Memory :=
  copyTo (copyTo m base (intBytes js.jobdata.length)) (base + 45) js.jobdata

/-- The status, the memory, and the committed tables: each failure ends in `rollback`. -/
def retriveDataFromDatabase (calls : Calls) (base : Nat) (m : Memory) (db : Db) :
    Int × Memory × Db :=
  if calls.begin = false then (-1, m, db)
  else
    match calls.getInfo with
    | .failed => (-1, m, db)
    | .empty => (-1, m, db)
    | .row (sc, js) =>
        let m := putInfo m base sc js
        match calls.getData with
        | .failed => (-1, m, db)
        | .empty => (-1, m, db)
        | .row _ =>
            let m := putData m base js
            if calls.updateJobStatus1 = false then (-1, m, db)
            else if calls.commit then (0, m, db.appendW js.jobid)
            else (-1, m, db)

/-- What `give_data_to_sender` does with the end of the retrieval. -/
def settle (s : State) (idx : Nat) : Int × Memory × Db → State
  | (status, m, db) =>
      if status = 0 then ⟨toggleBit idx m, s.semLockSigs + 1, db⟩ else ⟨m, s.semLockSigs, db⟩

def giveDataToSender (calls : Calls) (s : State) : State :=
  match (bitmap s.datas).getSubblock false 3 with
  | none => s
  | some idx =>
      let cleared := copyTo s.datas (blkptr idx) (List.replicate dpartitionSize 0)
      settle s idx (retriveDataFromDatabase calls (blkptr idx) cleared s.db)

def bits (m : Memory) : Nat → Bool := fun k => (bitmap m).bit k

structure Contains (m : Memory) (idx : Nat) (sc : SendingConn) (js : Job) : Prop where
  size : slice m (blkptr idx) 4 = intBytes js.jobdata.length
  fd : slice m (blkptr idx + 4) 4 = intBytes sc.sfd
  uuid : slice m (blkptr idx + 8) 37 = js.jobid.text ++ [0]
  data : slice m (blkptr idx + 45) js.jobdata.length = js.jobdata

/-- One free partition is filled with one job, which goes from S-4 to S-4W. -/
structure Given (s t : State) : Prop where
  partition : ∃ idx sc js, (sc, js) ∈ s.db.sGetInfo ∧ js ∈ s.db.jobScheduler ∧
    js.jstate = .S4 ∧ idx < totalPartitions ∧ bits s.datas idx = false ∧
    (∀ k < totalPartitions, bits t.datas k = if k = idx then true else bits s.datas k) ∧
    Contains t.datas idx sc js ∧
    (∀ other < totalPartitions, other ≠ idx →
      slice t.datas (blkptr other) dpartitionSize = slice s.datas (blkptr other) dpartitionSize) ∧
    t.db.jobScheduler = s.db.jobScheduler.map fun job =>
      if job = js then { job with jstate := .S4W } else job
  signalled : t.semLockSigs = s.semLockSigs + 1

structure Unchanged (s t : State) : Prop where
  bitmap : ∀ k < totalPartitions, bits t.datas k = bits s.datas k
  db : t.db = s.db
  silent : t.semLockSigs = s.semLockSigs

section Bits

variable {m m' : Memory} {idx k : Nat}

theorem bits_congr (same : ∀ a < bmapSize, m a = m' a) (inside : k < totalPartitions) :
    bits m k = bits m' k := by
  have byte : k / 8 < bmapSize := Nat.div_lt_div_of_lt_of_dvd (by decide) inside
  simp only [bits, Block.bit, bitmap, same _ byte]

theorem toggleBit_above (idx : Nat) (m : Memory) {a : Nat} (above : bmapSize ≤ a) :
    toggleBit idx m a = m a := if_neg (not_lt.mpr above)

theorem bits_toggle (idx : Nat) (m : Memory) (inside : k < totalPartitions) :
    bits (toggleBit idx m) k = if k = idx then !bits m k else bits m k := by
  have byte : k / 8 < bmapSize := Nat.div_lt_div_of_lt_of_dvd (by decide) inside
  have stored : bits (toggleBit idx m) k = ((bitmap m).toggleBit idx).bit k := by
    simp only [bits, Block.bit, bitmap, toggleBit, storeBitmap, if_pos byte]
  rw [stored, Block.bit_toggle]
  by_cases same : k = idx
  · subst same
    rw [Function.update_self, if_pos rfl]
    rfl
  · rw [Function.update_of_ne same, if_neg same]
    rfl

theorem getSubblock_bits (found : (bitmap m).getSubblock false 3 = some idx) :
    idx < totalPartitions ∧ bits m idx = false := by
  obtain ⟨member, free⟩ := Block.getSubblock_some found
  exact ⟨Block.mem_all.mp member, free⟩

end Bits

@[simp] theorem length_intBytes (n : Int) : (intBytes n).length = 4 := by simp [intBytes]

theorem length_uuid (id : Uuid) : (id.text ++ [0]).length = 37 := by simp [id.length]

theorem intBytes_atoi (n : Int) : intBytes (SenderSide.atoi n) = intBytes n := by
  rw [intBytes, SenderSide.atoi, BitVec.ofInt_toInt]
  rfl

section Partition

variable {m : Memory} {base a : Nat} {sc : SendingConn} {js : Job}

theorem blkptr_above (idx : Nat) : bmapSize ≤ blkptr idx := Nat.le_add_right _ _

theorem blkptr_apart {idx other : Nat} (apart : other ≠ idx) :
    blkptr idx + dpartitionSize ≤ blkptr other ∨ blkptr other + dpartitionSize ≤ blkptr idx := by
  unfold blkptr
  rcases Nat.lt_or_gt_of_ne apart with below | above
  · have := Nat.mul_le_mul_right dpartitionSize (Nat.succ_le_of_lt below)
    rw [Nat.succ_mul] at this
    omega
  · have := Nat.mul_le_mul_right dpartitionSize (Nat.succ_le_of_lt above)
    rw [Nat.succ_mul] at this
    omega

theorem putInfo_outside (m : Memory) (sc : SendingConn) (js : Job)
    (outside : a < base ∨ base + dpartitionSize ≤ a) : putInfo m base sc js a = m a := by
  have size : dpartitionSize = 131118 := rfl
  rw [putInfo, copyTo_outside _ (by rw [length_uuid]; omega),
    copyTo_outside _ (by rw [length_intBytes]; omega)]

theorem putData_outside (m : Memory) (fits : js.jobdata.length ≤ messageSize)
    (outside : a < base ∨ base + dpartitionSize ≤ a) : putData m base js a = m a := by
  have size : dpartitionSize = messageSize + 46 := rfl
  rw [putData, copyTo_outside _ (by omega), copyTo_outside _ (by rw [length_intBytes]; omega)]

theorem contains_put (m : Memory) (idx : Nat) (sc : SendingConn) (js : Job) :
    Contains (putData (putInfo m (blkptr idx) sc js) (blkptr idx) js) idx sc js := by
  have four := length_intBytes (SenderSide.atoi sc.sfd)
  have four' := length_intBytes (js.jobdata.length : Int)
  have long := length_uuid js.jobid
  constructor
  · have stored := slice_copyTo (putInfo m (blkptr idx) sc js) (blkptr idx)
      (intBytes js.jobdata.length)
    rw [four'] at stored
    rw [putData, slice_copyTo_apart _ (by omega), stored]
  · have stored := slice_copyTo m (blkptr idx + 4) (intBytes (SenderSide.atoi sc.sfd))
    rw [four, intBytes_atoi] at stored
    rw [putData, slice_copyTo_apart _ (by omega), slice_copyTo_apart _ (by omega), putInfo,
      slice_copyTo_apart _ (by omega), intBytes_atoi, stored]
  · rw [putData, slice_copyTo_apart _ (by omega), slice_copyTo_apart _ (by omega), putInfo, ← long,
      slice_copyTo]
  · rw [putData, slice_copyTo]

theorem Contains.congr {m' : Memory} {idx : Nat} (contains : Contains m idx sc js)
    (same : ∀ a, bmapSize ≤ a → m' a = m a) : Contains m' idx sc js := by
  have above := blkptr_above idx
  have slices (base count : Nat) (low : bmapSize ≤ base) :
      slice m' base count = slice m base count :=
    slice_congr fun a lower _ => same a (low.trans lower)
  constructor
  · rw [slices _ _ above, contains.size]
  · rw [slices _ _ (by omega), contains.fd]
  · rw [slices _ _ (by omega), contains.uuid]
  · rw [slices _ _ (by omega), contains.data]

end Partition

inductive Retrieved (base : Nat) (m : Memory) (db : Db) : Int × Memory × Db → Prop
  | job (sc : SendingConn) (js : Job) (listed : (sc, js) ∈ db.sGetInfo) :
      Retrieved base m db (0, putData (putInfo m base sc js) base js, db.appendW js.jobid)
  | nothing : Retrieved base m db (-1, m, db)
  | info (sc : SendingConn) (js : Job) : Retrieved base m db (-1, putInfo m base sc js, db)
  | data (sc : SendingConn) (js : Job) (listed : (sc, js) ∈ db.sGetInfo) :
      Retrieved base m db (-1, putData (putInfo m base sc js) base js, db)

theorem retrieved {calls : Calls} (base : Nat) (m : Memory) {db : Db} (listed : calls.Listed db) :
    Retrieved base m db (retriveDataFromDatabase calls base m db) := by
  unfold retriveDataFromDatabase
  split
  · exact .nothing
  · split
    · exact .nothing
    · exact .nothing
    · next sc js found =>
        have known := listed _ found
        dsimp only
        split
        · exact .info sc js
        · exact .info sc js
        · split
          · exact .data sc js known
          · split
            · exact .job sc js known
            · exact .data sc js known

theorem status_iff (calls : Calls) (base : Nat) (m : Memory) (db : Db) :
    (retriveDataFromDatabase calls base m db).1 = 0 ↔ calls.Succeed := by
  obtain ⟨begin, getInfo, getData, updateJobStatus1, commit⟩ := calls
  have fails {status : Int} {calls : Calls} (minus : status = -1) (missing : ¬ calls.Succeed) :
      status = 0 ↔ calls.Succeed := iff_of_false (by omega) missing
  unfold retriveDataFromDatabase
  dsimp only
  split
  · next off => exact fails rfl fun all => Bool.false_ne_true (off.symm.trans all.begin)
  · next on =>
      cases getInfo with
      | failed => exact fails rfl fun all => nomatch all.getInfo
      | empty => exact fails rfl fun all => nomatch all.getInfo
      | row info =>
          cases getData with
          | failed => exact fails rfl fun all => nomatch all.getData
          | empty => exact fails rfl fun all => nomatch all.getData
          | row data =>
              dsimp only
              split
              · next off =>
                  exact fails rfl fun all => Bool.false_ne_true (off.symm.trans all.updateJobStatus1)
              · next updated =>
                  cases commit with
                  | false => exact fails rfl fun all => Bool.false_ne_true all.commit
                  | true =>
                      exact iff_of_true rfl ⟨by simpa using on, ⟨info, rfl⟩, ⟨data, rfl⟩,
                        by simpa using updated, rfl⟩

section Step

variable {calls : Calls} {s : State}

theorem cleared_outside (m : Memory) {base a : Nat}
    (outside : a < base ∨ base + dpartitionSize ≤ a) :
    copyTo m base (List.replicate dpartitionSize 0) a = m a :=
  copyTo_outside m (by rwa [List.length_replicate])

theorem unchanged_of_outside {idx : Nat} {m : Memory}
    (same : ∀ a < blkptr idx, m a = s.datas a) :
    Unchanged s ⟨m, s.semLockSigs, s.db⟩ := by
  refine ⟨fun k inside => bits_congr (fun a low => same a ?_) inside, rfl, rfl⟩
  exact Nat.lt_of_lt_of_le low (blkptr_above idx)

theorem given_job {idx : Nat} {sc : SendingConn} {js : Job} {m : Memory} (keys : s.db.jobids.Nodup)
    (found : (bitmap s.datas).getSubblock false 3 = some idx) (listed : (sc, js) ∈ s.db.sGetInfo)
    (contains : Contains m idx sc js)
    (outside : ∀ a, a < blkptr idx ∨ blkptr idx + dpartitionSize ≤ a → m a = s.datas a) :
    Given s ⟨toggleBit idx m, s.semLockSigs + 1, s.db.appendW js.jobid⟩ := by
  obtain ⟨inside, free⟩ := getSubblock_bits found
  obtain ⟨-, member, state, -⟩ := Db.mem_sGetInfo.mp listed
  have before (k : Nat) (low : k < totalPartitions) : bits m k = bits s.datas k :=
    bits_congr (fun a below => outside a (.inl (Nat.lt_of_lt_of_le below (blkptr_above idx)))) low
  refine ⟨⟨idx, sc, js, listed, member, state, inside, free, fun k low => ?_, ?_,
    fun other low apart => ?_, ?_⟩, rfl⟩
  · rw [bits_toggle idx m low, before k low]
    by_cases same : k = idx
    · rw [if_pos same, if_pos same, same, free]
      rfl
    · rw [if_neg same, if_neg same]
  · exact contains.congr fun a above => toggleBit_above idx m above
  · change slice (toggleBit idx m) _ _ = _
    apply slice_congr
    intro a lower upper
    have above := (blkptr_above other).trans lower
    rw [toggleBit_above idx m above]
    apply outside a
    have := blkptr_apart apart
    omega
  · apply List.map_congr_left
    intro job present
    by_cases same : job = js
    · subst same
      simp [state]
    · have other : job.jobid ≠ js.jobid := fun equal =>
        same (List.inj_on_of_nodup_map keys present member equal)
      simp [same, other]

theorem settled {idx : Nat} {ends : Int × Memory × Db} (keys : s.db.jobids.Nodup)
    (fits : ∀ job ∈ s.db.jobScheduler, job.jobdata.length ≤ messageSize)
    (found : (bitmap s.datas).getSubblock false 3 = some idx) {cleared : Memory}
    (outside : ∀ a, a < blkptr idx ∨ blkptr idx + dpartitionSize ≤ a → cleared a = s.datas a)
    (retrieved : Retrieved (blkptr idx) cleared s.db ends) :
    Given s (settle s idx ends) ∨ Unchanged s (settle s idx ends) := by
  have info (sc : SendingConn) (js : Job) (a : Nat)
      (out : a < blkptr idx ∨ blkptr idx + dpartitionSize ≤ a) :
      putInfo cleared (blkptr idx) sc js a = s.datas a :=
    (putInfo_outside cleared sc js out).trans (outside a out)
  have data {sc : SendingConn} {js : Job} (listed : (sc, js) ∈ s.db.sGetInfo) (a : Nat)
      (out : a < blkptr idx ∨ blkptr idx + dpartitionSize ≤ a) :
      putData (putInfo cleared (blkptr idx) sc js) (blkptr idx) js a = s.datas a :=
    (putData_outside _ (fits js (Db.mem_sGetInfo.mp listed).2.1) out).trans (info sc js a out)
  cases retrieved with
  | job sc js listed =>
      left
      exact given_job keys found listed (contains_put cleared idx sc js) (data listed)
  | nothing =>
      right
      exact unchanged_of_outside fun a below => outside a (.inl below)
  | info sc js =>
      right
      exact unchanged_of_outside fun a below => info sc js a (.inl below)
  | data sc js listed =>
      right
      exact unchanged_of_outside fun a below => data listed a (.inl below)

theorem not_both {t : State} (given : Given s t) (same : Unchanged s t) : False := by
  have raised := given.signalled
  rw [same.silent] at raised
  omega

theorem settle_signals {idx : Nat} {ends : Int × Memory × Db} :
    (settle s idx ends).semLockSigs = s.semLockSigs + 1 ↔ ends.1 = 0 := by
  obtain ⟨status, m, db⟩ := ends
  unfold settle
  dsimp only
  split
  · next success => exact iff_of_true rfl success
  · next failure => exact iff_of_false (by simp) failure

theorem signalled_iff : (giveDataToSender calls s).semLockSigs = s.semLockSigs + 1 ↔
    (∃ k < totalPartitions, bits s.datas k = false) ∧ calls.Succeed := by
  unfold giveDataToSender
  split
  · next full =>
      refine iff_of_false (by omega) ?_
      rintro ⟨⟨k, low, free⟩, -⟩
      have taken : (bitmap s.datas).bit k = true := by
        simpa using Block.getSubblock_none.mp full k (Block.mem_all.mpr low)
      exact Bool.false_ne_true (free.symm.trans taken)
  · next idx found =>
      have free : ∃ k < totalPartitions, bits s.datas k = false := ⟨idx, getSubblock_bits found⟩
      rw [and_iff_right free]
      exact settle_signals.trans (status_iff calls _ _ s.db)

/-- One step, whatever its database calls do: it gives a job to `sender` exactly if it has a
partition and every call succeeds. -/
theorem given_or_unchanged (keys : s.db.jobids.Nodup)
    (fits : ∀ job ∈ s.db.jobScheduler, job.jobdata.length ≤ messageSize)
    (listed : calls.Listed s.db) :
    (Given s (giveDataToSender calls s) ∧ ¬ Unchanged s (giveDataToSender calls s) ∨
      Unchanged s (giveDataToSender calls s) ∧ ¬ Given s (giveDataToSender calls s)) ∧
    (Given s (giveDataToSender calls s) ↔
      (∃ k < totalPartitions, bits s.datas k = false) ∧ calls.Succeed) := by
  have either : Given s (giveDataToSender calls s) ∨ Unchanged s (giveDataToSender calls s) := by
    unfold giveDataToSender
    split
    · right
      exact ⟨fun _ _ => rfl, rfl, rfl⟩
    · next idx found =>
        exact settled keys fits found (fun a out => cleared_outside s.datas out)
          (retrieved (blkptr idx) _ listed)
  rw [← signalled_iff]
  cases either with
  | inl given => exact ⟨.inl ⟨given, not_both given⟩, iff_of_true given given.signalled⟩
  | inr same =>
      have never (given : Given s (giveDataToSender calls s)) : False := not_both given same
      have silent := same.silent
      exact ⟨.inr ⟨same, never⟩, iff_of_false never (by omega)⟩

end Step

theorem giveData_gives {s t : SenderSide.State} {m : Memory} {choice idx : Nat}
    {sc : SendingConn} {js : Job} (same : ∀ k < totalPartitions, bits m k = s.datas.bit k)
    (found : s.datas.getSubblock false 3 = some idx)
    (first : SenderSide.firstInfo s.db choice = some (some (sc, js)))
    (fits : js.jobdata.length ≤ messageSize) (done : SenderSide.giveData s choice = some t) :
    let after :=
      giveDataToSender ⟨true, .row (sc, js), .row (), true, true⟩ ⟨m, s.semLockSigs, s.db⟩
    after.db = t.db ∧ after.semLockSigs = t.semLockSigs ∧ Contains after.datas idx sc js ∧
      ∀ k < totalPartitions, bits after.datas k = t.datas.bit k := by
  have scanned : (bitmap m).getSubblock false 3 = some idx := by
    rw [← found, Block.getSubblock_eq, Block.getSubblock_eq]
    apply List.find?_congr
    intro k member
    rw [← same k (Block.mem_all.mp member)]
    rfl
  have free := (Block.getSubblock_some found).2
  have ends : SenderSide.giveData s choice = some { s with
      datas := s.datas.write idx (SenderSide.sendMessageOf sc js)
      semLockSigs := s.semLockSigs + 1
      processorS := .waiting
      db := s.db.appendW js.jobid } := by
    rw [SenderSide.giveData, found]
    dsimp only
    rw [first]
    rfl
  obtain rfl := Option.some.inj (done.symm.trans ends)
  let cleared := copyTo m (blkptr idx) (List.replicate dpartitionSize 0)
  let stored := putData (putInfo cleared (blkptr idx) sc js) (blkptr idx) js
  have given : giveDataToSender ⟨true, .row (sc, js), .row (), true, true⟩
      ⟨m, s.semLockSigs, s.db⟩ =
        ⟨toggleBit idx stored, s.semLockSigs + 1, s.db.appendW js.jobid⟩ := by
    rw [giveDataToSender, scanned]
    rfl
  have unmoved (k : Nat) (low : k < totalPartitions) : bits stored k = s.datas.bit k := by
    rw [← same k low]
    apply bits_congr (fun a below => ?_) low
    have out := Nat.lt_of_lt_of_le below (blkptr_above idx)
    change putData _ _ _ a = _
    rw [putData_outside _ fits (.inl out), putInfo_outside _ _ _ (.inl out)]
    exact cleared_outside m (.inl out)
  rw [given]
  refine ⟨rfl, rfl, ?_, fun k low => ?_⟩
  · exact (contains_put cleared idx sc js).congr fun a above => toggleBit_above idx stored above
  · rw [bits_toggle idx stored low, unmoved k low, Block.bit_write free]
    by_cases here : k = idx
    · subst here
      rw [if_pos rfl, Function.update_self, free]
      rfl
    · rw [if_neg here, Function.update_of_ne here]

def openDb : Db :=
  { SenderSide.readyDb 1 with sendingConns := [⟨5, 16843009, 2⟩], sendersComms := [] }

def allSucceed : Calls :=
  ⟨true, .row (⟨5, 16843009, 2⟩, SenderSide.readyJob 0), .row (), true, true⟩

theorem message_given_or_unchanged :
    let s : State := ⟨fun _ => 0, 0, openDb⟩
    Given s (giveDataToSender allSucceed s) ∧ ¬ Unchanged s (giveDataToSender allSucceed s) := by
  intro s
  have only : openDb.sGetInfo = [(⟨5, 16843009, 2⟩, SenderSide.readyJob 0)] := by decide +kernel
  have listed : allSucceed.Listed s.db := by
    intro row found
    change row ∈ openDb.sGetInfo
    rw [only, List.mem_singleton]
    cases found
    rfl
  have keys : s.db.jobids.Nodup := by decide +kernel
  have fits : ∀ job ∈ s.db.jobScheduler, job.jobdata.length ≤ messageSize := by decide +kernel
  have free : ∃ k < totalPartitions, bits s.datas k = false := ⟨0, by decide, by decide⟩
  have given := (given_or_unchanged keys fits listed).2.mpr
    ⟨free, rfl, ⟨_, rfl⟩, ⟨_, rfl⟩, rfl, rfl⟩
  exact ⟨given, not_both given⟩

end Giving

end FileSharing
