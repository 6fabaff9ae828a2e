import FileSharing.Database.Capacities

/-! The lengths of the messages in S-4 and the capacities of their destinations. -/

namespace FileSharing

open Library RunJobs Completion Made

namespace Lengths

/-- The message has the capacity of each row of its destination, and there is a row. -/
structure SizedFor (rows : List SysInfo) (job : Job) : Prop where
  positive : 0 < job.jobdata.length
  known : ∃ si ∈ rows, si.systemName = job.jdestination
  capacity : ∀ si ∈ rows, si.systemName = job.jdestination →
    si.systemCapacity = some (job.jobdata.length : Int)

def Sized (db : Db) : Prop :=
  ∀ job ∈ db.jobScheduler, job.jstate = .S4 → SizedFor db.sysinfo job

/-- The messages in S-4 for the source of a request have the capacity that the request will
write, and the rows that it conflicts with have its name as it is in the request. -/
def Agreed (db : Db) (r : Request) : Prop :=
  ∀ job ∈ db.jobScheduler, job.jstate = .S4 → job.jdestination = rtrim (lpad r.sourceName 5) →
    (job.jobdata.length : Int) = smaller db.selfinfo.systemCapacity r.rcapacity ∧
      ∀ si ∈ db.sysinfo, si.systemName = rtrim (lpad r.sourceName 5) →
        si.ipaddress = r.sourceIp → r.sourceName = rtrim (lpad r.sourceName 5)

def Alike (db : Db) (job : Job) : Prop :=
  ∀ si ∈ db.sysinfo, job.jdestination = si.systemName →
    ∀ si' ∈ db.sysinfo, job.jdestination = si'.systemName → si.systemCapacity = si'.systemCapacity

def Roomy (db : Db) (job : Job) : Prop :=
  ∀ si ∈ db.sysinfo, job.jdestination = si.systemName →
    ∀ capacity ∈ si.systemCapacity, 172 ≤ capacity + job.gap

/-- Before each pass: what requests write agrees with the messages in S-4, and the rows of the
destination of a job that is split allow for messages of one length. -/
structure PassSized (env : Env) (db : Db) : Prop where
  requests : ∀ a, promote env db = .ok a → ∀ request ∈ pending "4" a, ∀ r,
    requestOf request = .ok r → Agreed db r
  alike : ∀ u, beforeSplit env db = .ok u → ∀ q ∈ u.jobScheduler, q.jstate = .S1 →
    measured u (fun l r => l > r) q = .ok true ∨ measured u (fun l r => l ≤ r) q = .ok true →
    Alike u q
  roomy : ∀ u, beforeSplit env db = .ok u → ∀ q ∈ u.jobScheduler, q.jstate = .S1 →
    measured u (fun l r => l > r) q = .ok true → Roomy u q

def Allowed (db : Db) : Operation → Prop
  | .runJobs env => PassSized env db
  | _ => True

section Rows

variable {env : Env} {db db' : Db} {job : Job}

theorem sizedFor_map {rows : List SysInfo} (sized : SizedFor rows job) {change : SysInfo → SysInfo}
    (name : ∀ si, (change si).systemName = si.systemName)
    (same : ∀ si ∈ rows, si.systemName = job.jdestination →
      (change si).systemCapacity = si.systemCapacity) : SizedFor (rows.map change) job := by
  constructor
  · exact sized.positive
  · obtain ⟨si, member, named⟩ := sized.known
    exact ⟨change si, List.mem_map_of_mem member, (name si).trans named⟩
  · intro si member named
    obtain ⟨old, inside, rfl⟩ := List.mem_map.mp member
    have before : old.systemName = job.jdestination := (name old).symm.trans named
    exact (same old inside before).trans (sized.capacity old inside before)

theorem sizedFor_upsert {r : Request} {capacity : Int} (sized : SizedFor db.sysinfo job)
    (agreed : job.jdestination = rtrim (lpad r.sourceName 5) →
      (job.jobdata.length : Int) = capacity ∧
      ∀ si ∈ db.sysinfo, si.systemName = rtrim (lpad r.sourceName 5) →
        si.ipaddress = r.sourceIp → r.sourceName = rtrim (lpad r.sourceName 5))
    (done : upsertSysinfo [(r, some capacity)] db (r, some capacity) = .ok db') :
    SizedFor db'.sysinfo job := by
  rcases upsertSysinfo_ok done with ⟨found, read, -, rfl⟩ | ⟨new, rfl, -, rfl⟩
  · rw [(writeSysinfo_ok _ _ _).2]
    refine sizedFor_map sized (fun si => by split <;> rfl) fun si member named => ?_
    split
    · next conflict =>
        simp only [Bool.and_eq_true, decide_eq_true_eq] at conflict
        obtain ⟨length, exact⟩ := agreed (named.symm.trans conflict.1)
        have name := exact si member conflict.1 conflict.2
        -- the subquery finds the request
        obtain rfl : found = some (r, some capacity) := (scalar_filter read).2 (by simp [← name])
        rw [sized.capacity si member named, length]
        rfl
    · rfl
  · rw [(onlySysinfo_createComms _ _).2]
    constructor
    · exact sized.positive
    · obtain ⟨si, member, named⟩ := sized.known
      exact ⟨si, List.mem_append_left _ member, named⟩
    · intro si member named
      rcases List.mem_append.mp member with old | new
      · exact sized.capacity si old named
      · obtain rfl := List.mem_singleton.mp new
        exact congrArg some (agreed named.symm).1.symm

theorem sizedFor_applyReplies (sized : SizedFor db.sysinfo job)
    (done : applyReplies db = .ok db') : SizedFor db'.sysinfo job := by
  rcases applyReplies_ok done with rfl | ⟨reply, -, -, rfl⟩
  · exact sized
  · rw [(writeSysinfo_ok _ _ _).2]
    refine sizedFor_map sized (fun si => by split <;> rfl) fun si member named => ?_
    split
    · next waits =>
        simp only [waiting, Bool.and_eq_true, decide_eq_true_eq] at waits
        have length := Option.some.inj ((sized.capacity si member named).symm.trans waits.1)
        have positive := sized.positive
        omega
    · rfl

theorem sizedFor_beforeSplit {u : Db} (sized : SizedFor db.sysinfo job)
    (allowed : PassSized env db) (member : job ∈ db.jobScheduler) (ready : job.jstate = .S4)
    (before : beforeSplit env db = .ok u) : SizedFor u.sysinfo job := by
  obtain ⟨a, promoted, rest⟩ := bind_ok.mp before
  obtain ⟨b, answered, replied⟩ := bind_ok.mp rest
  have only : OnlyJobs db a := (promote_ok (w := ⟨true, false⟩) rfl promoted).2
  have first : SizedFor a.sysinfo job := only.sysinfo ▸ sized
  have second : SizedFor b.sysinfo job := by
    rcases answerRequests_ok answered with ⟨-, rfl⟩ | ⟨request, r, reply, x, y, one, read, written,
      -, inserted, rfl⟩
    · exact first
    · rw [finishPending, (onlyJobs_update _ _ _).sysinfo, (insertJob_ok inserted).2.1.sysinfo]
      refine sizedFor_upsert first (fun named => ?_) written
      rw [only.sysinfo, only.selfinfo]
      exact allowed.requests a promoted request (one ▸ List.mem_singleton.mpr rfl) r read job member
        ready named
  obtain ⟨c, applied, rfl⟩ := takeReplies_ok replied
  rw [finishPending, (onlyJobs_update _ _ _).sysinfo]
  exact sizedFor_applyReplies second applied

end Rows

section Made

variable {env : Env} {db u : Db} {job : Job}

theorem sizedFor_made (allowed : PassSized env db) (before : beforeSplit env db = .ok u)
    (made : MadeFrom env u job) : SizedFor u.sysinfo job := by
  obtain ⟨si, used, member, named, length, positive, from_row⟩ := made.length
  -- one capacity, not smaller than what the message needs
  have fits : ∃ capacity : Int, (used : Int) ≤ capacity ∧
      ∀ row ∈ u.sysinfo, row.systemName = job.jdestination →
        row.systemCapacity = some capacity := by
    rcases from_row with ⟨q, fd, inside, start, joins, long, short, bound⟩ |
      ⟨q, fd, capacity, inside, start, joins, long, row, bound⟩
    · obtain ⟨fd', si', capacity, joins', row', nonzero, chosen⟩ := measured_true short
      have same := allowed.alike u before q inside start (.inr short) si' joins'.known
        joins'.destination
      have row : si.systemCapacity = some capacity :=
        (same si joins.known joins.destination).symm.trans row'
      have notLong : ¬ (fd.fileData.length : Int) > capacity - 172 := fun more =>
        Bool.noConfusion (joins.measured long row nonzero (decide_eq_true more))
      refine ⟨capacity, by omega, fun other present destination => ?_⟩
      have target : q.jdestination = other.systemName :=
        joins.destination.trans (named.symm.trans destination.symm)
      exact (same other present target).symm.trans row'
    · have same := allowed.alike u before q inside start (.inl long) si joins.known
        joins.destination
      have large := allowed.roomy u before q inside start long si joins.known joins.destination
        capacity row
      refine ⟨capacity, by omega, fun other present destination => ?_⟩
      have target : q.jdestination = other.systemName :=
        joins.destination.trans (named.symm.trans destination.symm)
      exact (same other present target).symm.trans row
  obtain ⟨capacity, enough, rows⟩ := fits
  have exact : (job.jobdata.length : Int) = capacity := by
    rw [length, rows si member named.symm, paddedTo]
    omega
  constructor
  · omega
  · exact ⟨si, member, named.symm⟩
  · intro row present destination
    rw [rows row present destination, exact]

end Made

section Operations

variable {root : Uuid} {env : Env} {db db' : Db}

theorem sized_runJobs (tree : Tree root db) (sized : Sized db) (allowed : PassSized env db)
    (done : runJobs env db = .ok db') : Sized db' := by
  obtain ⟨u, before, sysinfo, -, ready⟩ := runJobs_made tree done
  intro job member state
  rw [sysinfo]
  rcases ready job member state with old | made
  · exact sizedFor_beforeSplit (sized job old state) allowed old state before
  · exact sizedFor_made allowed before made

theorem sized_keeps (sized : Sized db) (keeps : Keeps db db') : Sized db' := by
  intro job member state
  obtain ⟨old, inside, ready, data, destination⟩ := keeps.ready job member state
  have before := sized old inside ready
  rw [keeps.sysinfo]
  exact ⟨data ▸ before.positive, destination ▸ before.known,
    data ▸ destination ▸ before.capacity⟩

theorem sized_perform {op : Operation} (tree : Tree root db) (sized : Sized db)
    (allowed : Allowed db op) (step : db.perform op = some db') : Sized db' := by
  by_cases pass : ∃ env, op = .runJobs env
  · obtain ⟨env, rfl⟩ := pass
    obtain rfl := Option.some.inj step
    rcases Db.attempt_cases db (runJobs env db) with same | ⟨u, done, same⟩
    · rwa [same]
    · rw [same]
      exact sized_runJobs tree sized allowed done
  · exact sized_keeps sized (keeps_perform (fun env same => pass ⟨env, same⟩) step)

/-- In every run whose passes are allowed, each message in S-4 has exactly the capacity of its
destination. -/
theorem lengths_are_capacities {own : SelfInfo} {known : List SysInfo} {ops : List Operation}
    (reached : run Db.perform (startDb root own known) ops = some db)
    (guarded : Guarded Db.perform Allowed (startDb root own known) ops) {job : Job}
    (member : job ∈ db.jobScheduler) (ready : job.jstate = .S4) :
    (∃ si ∈ db.sysinfo, si.systemName = job.jdestination) ∧
      ∀ si ∈ db.sysinfo, si.systemName = job.jdestination →
        si.systemCapacity = some (job.jobdata.length : Int) := by
  have start : Sized (startDb root own known) := by
    intro job member state
    rw [List.mem_singleton.mp member] at state
    cases state
  have keeps (s : Db) (op : Operation) (t : Db) (kept : Tree root s ∧ Sized s)
      (allowed : Allowed s op) (step : s.perform op = some t) : Tree root t ∧ Sized t :=
    ⟨kept.1.perform step, sized_perform kept.1 kept.2 allowed step⟩
  obtain ⟨-, sized⟩ := guarded_run_keeps keeps ⟨Tree.start root own known, start⟩ guarded reached
  exact ⟨(sized job member ready).known, (sized job member ready).capacity⟩

end Operations

section Decide

instance (db : Db) (r : Request) : Decidable (Agreed db r) :=
  inferInstanceAs (Decidable (∀ _ ∈ _, _))

instance (db : Db) (job : Job) : Decidable (Alike db job) :=
  inferInstanceAs (Decidable (∀ _ ∈ _, _))

instance (db : Db) (job : Job) : Decidable (Roomy db job) :=
  inferInstanceAs (Decidable (∀ _ ∈ _, _))

instance (env : Env) (db : Db) : Decidable (PassSized env db) :=
  decidable_of_iff ((∀ a, promote env db = .ok a → ∀ request ∈ pending "4" a, ∀ r,
      requestOf request = .ok r → Agreed db r) ∧
    (∀ u, beforeSplit env db = .ok u → ∀ q ∈ u.jobScheduler, q.jstate = .S1 →
      measured u (fun l r => l > r) q = .ok true ∨ measured u (fun l r => l ≤ r) q = .ok true →
      Alike u q) ∧
    ∀ u, beforeSplit env db = .ok u → ∀ q ∈ u.jobScheduler, q.jstate = .S1 →
      measured u (fun l r => l > r) q = .ok true → Roomy u q)
    ⟨fun all => ⟨all.1, all.2.1, all.2.2⟩,
      fun allowed => ⟨allowed.requests, allowed.alike, allowed.roomy⟩⟩

instance (db : Db) (op : Operation) : Decidable (Allowed db op) :=
  match op with
  | .runJobs env => inferInstanceAs (Decidable (PassSized env db))
  | .importFile _ => .isTrue trivial
  | .sendFile _ _ _ => .isTrue trivial
  | .updateJobPriority _ _ => .isTrue trivial
  | .storeData _ _ _ => .isTrue trivial
  | .retrieve _ _ => .isTrue trivial
  | .updateStatus _ _ => .isTrue trivial
  | .updateConns _ _ _ => .isTrue trivial
  | .updateComms _ => .isTrue trivial
  | .deleteComms _ => .isTrue trivial
  | .getcomms _ => .isTrue trivial
  | .insertConns _ _ _ => .isTrue trivial

end Decide

section Samples

open Capacities

def envFrom (n : Nat) : Env :=
  { now := sampleEnv.now, uuid := fun statement i => Uuid.ofNat (n + 100 * statement + i) }

def queued : List Operation := renegotiation 1000 ++ [.runJobs (envFrom 1000)]

def requeued (capacity : Int) : List Operation :=
  queued ++ [.storeData (Uuid.ofNat 3) 5
      (Requests.peerData { Requests.peerM2 with systemCapacity := capacity } (ascii "4")),
    .runJobs (envFrom 2000)]

def waitsFor (db : Db) (length : Nat) (capacity : Int) : Bool :=
  decide (m2Of capacity ∈ db.sysinfo) && db.jobScheduler.any fun job =>
    decide (job.jstate = .S4 ∧ job.jdestination = ascii "   M2" ∧ job.jobdata.length = length)

theorem waitsFor_some {ops : List Operation} {length : Nat} {capacity : Int}
    (holds : (run Db.perform (sampleStart []) ops).map (fun db => waitsFor db length capacity) =
      some true) : ∃ db job, run Db.perform (sampleStart []) ops = some db ∧
      m2Of capacity ∈ db.sysinfo ∧ job ∈ db.jobScheduler ∧ job.jstate = .S4 ∧
      job.jdestination = (m2Of capacity).systemName ∧ job.jobdata.length = length := by
  obtain ⟨db, reached, found⟩ := Option.map_eq_some_iff.mp holds
  simp only [waitsFor, Bool.and_eq_true, decide_eq_true_eq, List.any_eq_true] at found
  obtain ⟨row, job, member, ready, destination, count⟩ := found
  exact ⟨db, job, reached, row, member, ready, destination, count⟩

theorem queued_message_sized :
    ∃ db job, run Db.perform (sampleStart []) queued = some db ∧ job ∈ db.jobScheduler ∧
      job.jstate = .S4 ∧ m2Of 1000 ∈ db.sysinfo ∧
      (m2Of 1000).systemCapacity = some (job.jobdata.length : Int) := by
  obtain ⟨db, job, reached, row, member, ready, destination, -⟩ :=
    waitsFor_some (by decide +kernel : (run Db.perform (sampleStart []) queued).map
      (fun db => waitsFor db 1000 1000) = some true)
  have guarded : Guarded Db.perform Allowed (sampleStart []) queued := by decide +kernel
  exact ⟨db, job, reached, member, ready, row,
    (lengths_are_capacities reached guarded member ready).2 _ row destination.symm⟩

/-- The message keeps its 1000 bytes when the capacity of M2 becomes 2000. -/
theorem requeued_message_short :
    ∃ db job, run Db.perform (sampleStart []) (requeued 2000) = some db ∧
      job ∈ db.jobScheduler ∧ job.jstate = .S4 ∧ m2Of 2000 ∈ db.sysinfo ∧
      (m2Of 2000).systemName = job.jdestination ∧
      (m2Of 2000).systemCapacity ≠ some (job.jobdata.length : Int) := by
  obtain ⟨db, job, reached, row, member, ready, destination, length⟩ :=
    waitsFor_some (by decide +kernel : (run Db.perform (sampleStart []) (requeued 2000)).map
      (fun db => waitsFor db 1000 2000) = some true)
  refine ⟨db, job, reached, member, ready, row, destination.symm, ?_⟩
  rw [length]
  decide

end Samples

end Lengths

end FileSharing
