import FileSharing.Database.Made
import FileSharing.Database.Requests
import FileSharing.Network.Addresses

/-! The capacities in `sysinfo`, and the sizes that other programs get from them. -/

namespace FileSharing

open Library RunJobs Completion Made

namespace Capacities

/-- A capacity above the overhead of a message and not above the own one. -/
def Usable (own capacity : Int) : Prop := 172 < capacity ∧ capacity ≤ own

instance (own capacity : Int) : Decidable (Usable own capacity) :=
  inferInstanceAs (Decidable (_ ∧ _))

def UsableRow (own : Int) (si : SysInfo) : Prop :=
  ∀ capacity, si.systemCapacity = some capacity → capacity ≠ 0 → Usable own capacity

structure Sizes (own : Int) (db : Db) : Prop where
  self : db.selfinfo.systemCapacity = own
  sysinfo : ∀ si ∈ db.sysinfo, UsableRow own si
  handed : ∀ row ∈ db.receiversComms, Usable own row.rdata2

structure Bounded (own : Int) (db : Db) : Prop extends Sizes own db where
  copied : ∀ job ∈ db.jobScheduler, job.jstate = .S4 → (job.jobdata.length : Int) ≤ own

section Rows

variable {P : SysInfo → Prop} {Q : ReceiversComm → Prop} {db db' : Db}

def Tells (Q : ReceiversComm → Prop) (si : SysInfo) : Prop :=
  ∀ id capacity, si.systemCapacity = some capacity → capacity ≠ 0 →
    Q ⟨id, si.ipaddress, capacity⟩

structure Rows (P : SysInfo → Prop) (Q : ReceiversComm → Prop) (db : Db) : Prop where
  sysinfo : ∀ si ∈ db.sysinfo, P si
  handed : ∀ row ∈ db.receiversComms, Q row

theorem Rows.only (rows : Rows P Q db) (only : OnlyJobs db db') : Rows P Q db' :=
  ⟨only.sysinfo ▸ rows.sysinfo, only.receiversComms ▸ rows.handed⟩

theorem rows_createComms (rows : Rows P Q db) {si : SysInfo} (tells : Tells Q si) :
    Rows P Q (db.createComms si) := by
  unfold Db.createComms
  split
  · exact rows
  · next capacity known =>
      split
      · exact rows
      · next nonzero =>
          constructor
          · exact rows.sysinfo
          · intro handed member
            cases List.mem_append.mp member with
            | inl old => exact rows.handed handed old
            | inr new =>
                rw [List.mem_singleton.mp new]
                exact tells _ capacity known nonzero

theorem rows_foldl {written : List SysInfo} (rows : Rows P Q db)
    (tells : ∀ si ∈ written, Tells Q si) : Rows P Q (written.foldl Db.createComms db) := by
  induction written generalizing db with
  | nil => exact rows
  | cons si rest ih =>
      apply ih
      · exact rows_createComms rows (tells si List.mem_cons_self)
      · exact fun later member => tells later (List.mem_cons_of_mem si member)

theorem rows_writeSysinfo (rows : Rows P Q db) {condition : SysInfo → Bool}
    {change : SysInfo → SysInfo}
    (each : ∀ si ∈ db.sysinfo, condition si = true → P (change si) ∧ Tells Q (change si)) :
    Rows P Q (writeSysinfo db condition change) := by
  apply rows_foldl
  · constructor
    · intro si member
      obtain ⟨old, inside, rfl⟩ := List.mem_map.mp member
      split
      · next holds => exact (each old inside holds).1
      · exact rows.sysinfo old inside
    · exact rows.handed
  · intro si member
    obtain ⟨old, listed, rfl⟩ := List.mem_map.mp member
    obtain ⟨inside, holds⟩ := List.mem_filter.mp listed
    exact (each old inside holds).2

/-- The upsert for a request writes its address with its capacity, or with none where the subquery
does not find the request. -/
theorem rows_upsert (rows : Rows P Q db) {r : Request} {capacity : Int}
    (each : ∀ si, si.ipaddress = r.sourceIp →
      si.systemCapacity = none ∨ si.systemCapacity = some capacity → P si ∧ Tells Q si)
    (done : upsertSysinfo [(r, some capacity)] db (r, some capacity) = .ok db') :
    Rows P Q db' := by
  rcases upsertSysinfo_ok done with ⟨found, read, -, rfl⟩ | ⟨new, made, -, rfl⟩
  · refine rows_writeSysinfo rows fun si inside conflict => ?_
    simp only [Bool.and_eq_true, decide_eq_true_eq] at conflict
    have capacities : found.bind Prod.snd = none ∨ found.bind Prod.snd = some capacity := by
      cases (scalar_filter read).1 with
      | inl none => exact .inl (by rw [none]; rfl)
      | inr itself => exact .inr (by rw [itself]; rfl)
    exact each _ conflict.2 capacities
  · have written := each new (by rw [made]) (.inr (by rw [made]))
    apply rows_createComms _ written.2
    constructor
    · intro si member
      cases List.mem_append.mp member with
      | inl old => exact rows.sysinfo si old
      | inr last =>
          rw [List.mem_singleton.mp last]
          exact written.1
    · exact rows.handed

theorem rows_takeReplies (rows : Rows P Q db)
    (each : ∀ reply, cteSysinfo db = .ok [reply] → db.sysinfo.any waiting = true →
      ∀ old ∈ db.sysinfo, ∀ si, si.ipaddress = old.ipaddress →
      si.systemCapacity = some reply.1 → P si ∧ Tells Q si)
    (done : takeReplies db = .ok db') : Rows P Q db' := by
  obtain ⟨u, applied, rfl⟩ := takeReplies_ok done
  apply Rows.only _ (onlyJobs_update _ _ _)
  rcases applyReplies_ok applied with rfl | ⟨reply, read, waits, rfl⟩
  · exact rows
  · exact rows_writeSysinfo rows fun si inside _ => each reply read waits si inside _ rfl rfl

end Rows

section Sizes

variable {own : Int} {env : Env} {db db' : Db}

theorem Sizes.of_rows (self : db.selfinfo.systemCapacity = own)
    (rows : Rows (UsableRow own) (fun row => Usable own row.rdata2) db) : Sizes own db :=
  ⟨self, rows.sysinfo, rows.handed⟩

theorem Sizes.rows (sizes : Sizes own db) :
    Rows (UsableRow own) (fun row => Usable own row.rdata2) db :=
  ⟨sizes.sysinfo, sizes.handed⟩

theorem sizes_only (sizes : Sizes own db) (only : OnlyJobs db db') : Sizes own db' :=
  ⟨only.selfinfo ▸ sizes.self, only.sysinfo ▸ sizes.sysinfo, only.receiversComms ▸ sizes.handed⟩

theorem usableRow_written {si : SysInfo} {capacity : Int} (usable : capacity = 0 ∨ Usable own capacity)
    (written : si.systemCapacity = none ∨ si.systemCapacity = some capacity) :
    UsableRow own si ∧ Tells (fun row => Usable own row.rdata2) si := by
  have row : UsableRow own si := by
    intro other same nonzero
    cases written with
    | inl none => cases none.symm.trans same
    | inr known =>
        obtain rfl := Option.some.inj (known.symm.trans same)
        exact usable.resolve_left nonzero
  exact ⟨row, fun _ => row⟩

theorem sizes_upsert (sizes : Sizes own db) {r : Request} {capacity : Int}
    (usable : capacity = 0 ∨ Usable own capacity)
    (done : upsertSysinfo [(r, some capacity)] db (r, some capacity) = .ok db') :
    Sizes own db' := by
  apply Sizes.of_rows
  · rw [(upsertSysinfo_frame done).selfinfo]
    exact sizes.self
  · exact rows_upsert sizes.rows (fun _ _ => usableRow_written usable) done

/-- Before each pass: what the peers say, and the rows of the jobs that it will cut. -/
structure PassAllowed (env : Env) (db : Db) : Prop where
  requests : ∀ a, promote env db = .ok a → ∀ job ∈ pending "4" a, ∀ asked,
    capacityField job.jobdata = .ok asked →
    smaller db.selfinfo.systemCapacity asked = 0 ∨
      172 < smaller db.selfinfo.systemCapacity asked
  replies : ∀ b, (promote env db >>= answerRequests env) = .ok b → b.sysinfo.any waiting = true →
    ∀ rows, cteSysinfo b = .ok rows → ∀ row ∈ rows,
    row.1 = 0 ∨ Usable db.selfinfo.systemCapacity row.1
  cuts : ∀ u, beforeSplit env db = .ok u → ∀ js ∈ u.jobScheduler, js.jstate = .S1 →
    measured u (fun l r => l > r) js = .ok true →
    ∀ si ∈ u.sysinfo, js.jdestination = si.systemName → si.systemCapacity ≠ some 0

def Allowed (db : Db) : Operation → Prop
  | .runJobs env => PassAllowed env db
  | _ => True

theorem smaller_le (own asked : Int) : smaller own asked ≤ own := by
  unfold smaller
  split <;> omega

theorem sizes_answerRequests (sizes : Sizes own db)
    (usable : ∀ job ∈ pending "4" db, ∀ asked, capacityField job.jobdata = .ok asked →
      smaller own asked = 0 ∨ 172 < smaller own asked)
    (done : answerRequests env db = .ok db') : Sizes own db' := by
  have finish {x : Db} (digit : String) (sizes : Sizes own x) : Sizes own (finishPending digit x) :=
    sizes_only sizes (onlyJobs_update _ _ _)
  rcases answerRequests_ok done with ⟨-, rfl⟩ | ⟨request, r, reply, u, v, one, read, written, made,
    inserted, rfl⟩
  · exact finish "4" sizes
  · have asked : capacityField request.jobdata = .ok r.rcapacity := by
      obtain ⟨capacity, field, rest⟩ := bind_ok.mp read
      obtain ⟨port, -, rest⟩ := bind_ok.mp rest
      obtain ⟨address, -, rest⟩ := bind_ok.mp rest
      rw [← pure_ok.mp rest, field]
    have known := usable request (one ▸ List.mem_singleton.mpr rfl) _ asked
    rw [sizes.self] at written
    have wrote : Sizes own u :=
      sizes_upsert sizes (known.imp_right fun large => ⟨large, smaller_le _ _⟩) written
    exact finish "4" (sizes_only wrote (insertJob_ok inserted).2.1)

theorem sizes_takeReplies (sizes : Sizes own db)
    (usable : db.sysinfo.any waiting = true → ∀ rows, cteSysinfo db = .ok rows → ∀ row ∈ rows,
      row.1 = 0 ∨ Usable own row.1)
    (done : takeReplies db = .ok db') : Sizes own db' := by
  apply Sizes.of_rows
  · obtain ⟨u, applied, rfl⟩ := takeReplies_ok done
    rw [finishPending, (onlyJobs_update _ _ _).selfinfo, (applyReplies_frame applied).selfinfo]
    exact sizes.self
  · refine rows_takeReplies sizes.rows (fun reply read waits old _ si _ known => ?_) done
    have row := usable waits [reply] read reply (List.mem_singleton.mpr rfl)
    exact usableRow_written row (.inr known)

theorem sizes_beforeSplit (sizes : Sizes own db) (allowed : PassAllowed env db)
    (done : beforeSplit env db = .ok db') : Sizes own db' := by
  obtain ⟨a, promoted, rest⟩ := bind_ok.mp done
  obtain ⟨b, answered, replied⟩ := bind_ok.mp rest
  have first : Sizes own a := sizes_only sizes (promote_ok (w := ⟨true, false⟩) rfl promoted).2
  have requests := allowed.requests a promoted
  have replies := allowed.replies b (bind_ok.mpr ⟨a, promoted, answered⟩)
  rw [sizes.self] at requests replies
  exact sizes_takeReplies (sizes_answerRequests first requests answered) replies replied

theorem length_made (sizes : Sizes own db) {job : Job} (made : MadeFrom env db job) :
    (job.jobdata.length : Int) ≤ own := by
  obtain ⟨si, used, known, -, length, -, bound⟩ := made.length
  -- a row that the subquery chose has a usable capacity
  have fits : (used : Int) ≤ own := by
    rcases bound with ⟨q, fd, -, -, joins, long, short, bound⟩ |
      ⟨q, fd, capacity, -, -, -, long, row, bound⟩
    · obtain ⟨fd', si', capacity, joins', row, nonzero, -⟩ := measured_true short
      obtain ⟨large, small⟩ := sizes.sysinfo si' joins'.known capacity row nonzero
      have both : Joins db (fd, q, si') := ⟨joins.file, joins.name, joins'.known, joins'.destination⟩
      have notLong : ¬ (fd.fileData.length : Int) > capacity - 172 := fun more =>
        Bool.noConfusion (both.measured long row nonzero (decide_eq_true more))
      omega
    · obtain ⟨fd', si', capacity', joins', row', nonzero, -⟩ := measured_true long
      obtain ⟨large, small⟩ := sizes.sysinfo si' joins'.known capacity' row' nonzero
      rcases bound with inside | header
      · by_cases zero : capacity = 0
        · omega
        · have usable := sizes.sysinfo si known capacity row zero
          exact inside.trans usable.2
      · omega
  rw [length]
  cases row : si.systemCapacity with
  | none => exact fits
  | some capacity =>
      rw [paddedTo]
      by_cases zero : capacity = 0
      · omega
      · have usable := sizes.sysinfo si known capacity row zero
        have small := usable.2
        omega

end Sizes

section Operations

variable {own : Int} {root : Uuid} {env : Env} {db db' : Db}

theorem bounded_runJobs (tree : Tree root db) (bounded : Bounded own db)
    (allowed : PassAllowed env db) (done : runJobs env db = .ok db') : Bounded own db' := by
  obtain ⟨u, before, sysinfo, comms, ready⟩ := runJobs_made tree done
  have sizes : Sizes own u := sizes_beforeSplit bounded.toSizes allowed before
  have self : db'.selfinfo = u.selfinfo := by
    rw [runJobs_split] at done
    obtain ⟨v, same, rest⟩ := bind_ok.mp done
    obtain rfl := Except.ok.inj (same.symm.trans before)
    obtain ⟨y, split, managed⟩ := bind_ok.mp rest
    have only : OnlyJobs v y := (splitJobs_ok (w := ⟨true, true⟩) rfl split).2
    exact (manageConns_frame managed).selfinfo.trans only.selfinfo
  refine ⟨⟨self ▸ sizes.self, sysinfo ▸ sizes.sysinfo, comms ▸ sizes.handed⟩, ?_⟩
  intro job member state
  rcases ready job member state with old | made
  · exact bounded.copied job old state
  · exact length_made sizes made

theorem bounded_keeps (bounded : Bounded own db) (keeps : Keeps db db') : Bounded own db' := by
  refine ⟨⟨keeps.selfinfo ▸ bounded.self, keeps.sysinfo ▸ bounded.sysinfo, ?_⟩, ?_⟩
  · exact fun row member => bounded.handed row (keeps.handed row member)
  · intro job member state
    obtain ⟨old, inside, ready, same, -⟩ := keeps.ready job member state
    exact same ▸ bounded.copied old inside ready

theorem bounded_perform {op : Operation} (tree : Tree root db) (bounded : Bounded own db)
    (allowed : Allowed db op) (step : db.perform op = some db') : Bounded own db' := by
  by_cases pass : ∃ env, op = .runJobs env
  · obtain ⟨env, rfl⟩ := pass
    obtain rfl := Option.some.inj step
    rcases Db.attempt_cases db (runJobs env db) with same | ⟨u, done, same⟩
    · rwa [same]
    · rw [same]
      exact bounded_runJobs tree bounded allowed done
  · exact bounded_keeps bounded (keeps_perform (fun env same => pass ⟨env, same⟩) step)

theorem divisor_positive (tree : Tree root db) (bounded : Bounded own db)
    (allowed : PassAllowed env db) {u x : Db} (before : beforeSplit env db = .ok u)
    (state : CutState env u x) {rows : List (File × Job × SysInfo)}
    (read : joined x .S2 = .ok rows) {row : File × Job × SysInfo} (member : row ∈ rows)
    {capacity : Int} (known : row.2.2.systemCapacity = some capacity) : 0 < capacity - 172 := by
  obtain ⟨q, inside, start, long, -, joins⟩ :=
    state.joined (tree.beforeSplit before).settled read member
  have nonzero : capacity ≠ 0 := by
    rintro rfl
    exact allowed.cuts u before q inside start long row.2.2 joins.known joins.destination known
  have sizes : Sizes own u := sizes_beforeSplit bounded.toSizes allowed before
  have large := (sizes.sysinfo row.2.2 joins.known capacity known nonzero).1
  omega

/-- In every run whose passes are allowed, the capacities stay usable; so the sizes that split
a file are positive, and those that `receiver` and `sender` get fit in their buffers. -/
theorem capacities_bounded {own : SelfInfo} {known : List SysInfo} {ops : List Operation}
    (reached : run Db.perform (startDb root own known) ops = some db)
    (guarded : Guarded Db.perform Allowed (startDb root own known) ops)
    (usable : ∀ si ∈ known, UsableRow own.systemCapacity si) :
    (∀ si ∈ db.sysinfo, UsableRow own.systemCapacity si) ∧
      (∀ env u x rows row capacity, PassAllowed env db → beforeSplit env db = .ok u →
        CutState env u x → joined x .S2 = .ok rows → row ∈ rows →
        row.2.2.systemCapacity = some capacity → 0 < capacity - 172) ∧
      (own.systemCapacity ≤ messageSize →
        (∀ row ∈ db.receiversComms, 172 < (Addresses.capacityInfo row).capacity ∧
          (Addresses.capacityInfo row).capacity ≤ messageSize) ∧
        ∀ sc job, (sc, job) ∈ db.sGetInfo →
          (SenderSide.sendMessageOf sc job).size ≤ messageSize) := by
  have start : Bounded own.systemCapacity (startDb root own known) := by
    refine ⟨⟨rfl, usable, nofun⟩, fun job member state => ?_⟩
    rw [List.mem_singleton.mp member] at state
    cases state
  have keeps (s : Db) (op : Operation) (t : Db)
      (kept : Tree root s ∧ Bounded own.systemCapacity s) (allowed : Allowed s op)
      (step : s.perform op = some t) : Tree root t ∧ Bounded own.systemCapacity t :=
    ⟨kept.1.perform step, bounded_perform kept.1 kept.2 allowed step⟩
  obtain ⟨tree, bounded⟩ := guarded_run_keeps keeps ⟨Tree.start root own known, start⟩ guarded reached
  refine ⟨bounded.sysinfo, ?_, fun fits => ⟨fun row member => ?_, fun sc job listed => ?_⟩⟩
  · intro env u x rows row capacity allowed before state read member row
    exact divisor_positive tree bounded allowed before state read member row
  · obtain ⟨large, small⟩ := bounded.handed row member
    have same : (Addresses.capacityInfo row).capacity = row.rdata2 := by
      have limit : (messageSize : Int) < 2 ^ 31 := by decide
      exact (Addresses.atoi_eq_iff ⟨by omega, by omega⟩).mpr (by omega)
    rw [same]
    exact ⟨large, by omega⟩
  · obtain ⟨-, member, ready, -⟩ := Db.mem_sGetInfo.mp listed
    have length := bounded.copied job member ready
    have same : (SenderSide.sendMessageOf sc job).size = job.jobdata.length := rfl
    rw [same]
    omega

end Operations

section Decide

instance (env : Env) (db : Db) : Decidable (PassAllowed env db) :=
  decidable_of_iff ((∀ a, promote env db = .ok a → ∀ job ∈ pending "4" a, ∀ asked,
      capacityField job.jobdata = .ok asked →
      smaller db.selfinfo.systemCapacity asked = 0 ∨
        172 < smaller db.selfinfo.systemCapacity asked) ∧
    (∀ b, (promote env db >>= answerRequests env) = .ok b → b.sysinfo.any waiting = true →
      ∀ rows, cteSysinfo b = .ok rows → ∀ row ∈ rows,
      row.1 = 0 ∨ Usable db.selfinfo.systemCapacity row.1) ∧
    ∀ u, beforeSplit env db = .ok u → ∀ js ∈ u.jobScheduler, js.jstate = .S1 →
      measured u (fun l r => l > r) js = .ok true →
      ∀ si ∈ u.sysinfo, js.jdestination = si.systemName → si.systemCapacity ≠ some 0)
    ⟨fun all => ⟨all.1, all.2.1, all.2.2⟩,
      fun allowed => ⟨allowed.requests, allowed.replies, allowed.cuts⟩⟩

instance (db : Db) (op : Operation) : Decidable (Allowed db op) :=
  match op with
  | .runJobs env => inferInstanceAs (Decidable (PassAllowed env db))
  | .importFile _ => .isTrue trivial
  | .sendFile _ _ _ => .isTrue trivial
  | .updateJobPriority _ _ => .isTrue trivial
  | .storeData _ _ _ => .isTrue trivial
  | .retrieve _ _ => .isTrue trivial
  | .updateStatus _ _ => .isTrue trivial
  | .updateConns _ _ _ => .isTrue trivial
  | .updateComms _ => .isTrue trivial
  | .deleteComms _ => .isTrue trivial
  | .getcomms _ => .isTrue trivial
  | .insertConns _ _ _ => .isTrue trivial

end Decide

section Samples

def renegotiation (capacity : Int) : List Operation :=
  [.storeData (Uuid.ofNat 1) 5
      (Requests.peerData { Requests.peerM2 with systemCapacity := capacity } (ascii "4")),
    .runJobs sampleEnv, .importFile ⟨ascii "f", List.replicate 10 7⟩,
    .sendFile (Uuid.ofNat 2) (ascii "f") (ascii "M2")]

def m2Of (capacity : Int) : SysInfo := ⟨ascii "   M2", 33686018, some 6201, 7000, some capacity⟩

theorem usable_m2 :
    ∃ db, run Db.perform (sampleStart []) (renegotiation 1000) = some db ∧
      m2Of 1000 ∈ db.sysinfo ∧ UsableRow 32768 (m2Of 1000) := by
  obtain ⟨db, reached, member⟩ := Option.map_eq_some_iff.mp
    (by decide +kernel : (run Db.perform (sampleStart []) (renegotiation 1000)).map
      (fun db => decide (m2Of 1000 ∈ db.sysinfo)) = some true)
  have row := of_decide_eq_true member
  have guarded : Guarded Db.perform Allowed (sampleStart []) (renegotiation 1000) := by
    decide +kernel
  exact ⟨db, reached, row, (capacities_bounded reached guarded nofun).1 _ row⟩

/-- The capacity of a request can be the overhead itself: the next file for that system makes
every pass raise. -/
theorem tiny_capacity_divides :
    ∃ db, run Db.perform (sampleStart []) (renegotiation 172) = some db ∧
      m2Of 172 ∈ db.sysinfo ∧ ¬ UsableRow 32768 (m2Of 172) ∧
      runJobs sampleEnv db = .error .divisionByZero := by
  obtain ⟨db, reached, holds⟩ := Option.map_eq_some_iff.mp
    (by decide +kernel : (run Db.perform (sampleStart []) (renegotiation 172)).map
      (fun db => decide (m2Of 172 ∈ db.sysinfo) &&
        decide (runJobs sampleEnv db = .error .divisionByZero)) = some true)
  simp only [Bool.and_eq_true, decide_eq_true_eq] at holds
  have small : ¬ (172 : Int) < 172 := by decide
  exact ⟨db, reached, holds.1, fun usable => small (usable 172 rfl (by decide)).1, holds.2⟩

end Samples

end Capacities

end FileSharing
