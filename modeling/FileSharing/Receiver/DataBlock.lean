import FileSharing.Library.Runs
import FileSharing.Shared.Partition
import FileSharing.Shared.Records
import FileSharing.Database.Evolution

/-! The data block between `receiver` and `processor_r`. The steps between two operations
on a semaphore are one step, except that each attempt of the writer is its own. -/

namespace FileSharing

open Library

namespace DataBlock

/-- Where `receiver` is in `send_to_processor`; `trying` has the attempts that are left. -/
inductive Writer where
  | idle
  | waiting (nmsg : NewmsgData)
  | trying (nmsg : NewmsgData) (attempts : Nat)
  | leaving

/-- Where `processor_r` is in the loop of `run_process`, as far as the data block goes. -/
inductive Reader where
  | idle
  | signalled
  | reading

structure State where
  datar : Block NewmsgData
  semLockDatar : Bool
  semLockSigr : Nat
  receiver : Writer
  processorR : Reader
  db : Db

/-- `signal` is a `sem_post` of `sigr` by the notifier or for the other block. -/
inductive Action where
  | sendToProcessor (fd : Int) (data : Bytea)
  | lockWriter
  | attempt
  | unlockWriter
  | signal
  | waitSignal
  | lockReader
  | getData (id : Uuid)

/-- The critical section of `get_data_from_receiver`, in the runs where the insert succeeds. -/
def getDataFromReceiver (s : State) (id : Uuid) : Option State :=
  match s.datar.getSubblock true 3 with
  | none => some { s with semLockDatar := true, processorR := .idle }
  | some idx =>
      match s.datar.partitions idx with
      | none => none
      | some nmsg =>
          match s.db.storeData id nmsg.data1 (nmsg.data.take nmsg.data2) with
          | .error _ => none
          | .ok db => some { s with
              datar := s.datar.toggleBit idx
              semLockDatar := true
              processorR := .idle
              db := db }

def attempt (s : State) (nmsg : NewmsgData) (attempts : Nat) : State :=
  match s.datar.getSubblock false 3 with
  | some idx => { s with
      datar := s.datar.write idx nmsg
      semLockSigr := s.semLockSigr + 1
      receiver := .leaving }
  | none => { s with receiver := if attempts - 1 > 0 then .trying nmsg (attempts - 1) else .leaving }

def step (s : State) : Action → Option State
  | .sendToProcessor fd data =>
      match s.receiver with
      | .idle => some { s with receiver := .waiting ⟨fd, data.length, data⟩ }
      | _ => none
  | .lockWriter =>
      match s.receiver, s.semLockDatar with
      | .waiting nmsg, true => some { s with semLockDatar := false, receiver := .trying nmsg 3 }
      | _, _ => none
  | .attempt =>
      match s.receiver with
      | .trying nmsg attempts => some (attempt s nmsg attempts)
      | _ => none
  | .unlockWriter =>
      match s.receiver with
      | .leaving => some { s with semLockDatar := true, receiver := .idle }
      | _ => none
  | .signal => some { s with semLockSigr := s.semLockSigr + 1 }
  | .waitSignal =>
      match s.processorR, s.semLockSigr with
      | .idle, sigr + 1 => some { s with semLockSigr := sigr, processorR := .signalled }
      | _, _ => none
  | .lockReader =>
      match s.processorR, s.semLockDatar with
      | .signalled, true => some { s with semLockDatar := false, processorR := .reading }
      | _, _ => none
  | .getData id =>
      match s.processorR with
      | .reading => getDataFromReceiver s id
      | _ => none

def initial (db : Db) : State := ⟨.empty, true, 0, .idle, .idle, db⟩

def passed (_ : State) : Action → List NewmsgData
  | .sendToProcessor fd data => [⟨fd, data.length, data⟩]
  | _ => []

def stored (s : State) : Action → List NewmsgData
  | .getData _ => ((s.datar.getSubblock true 3).bind s.datar.partitions).toList
  | _ => []

/-- The messages of the calls that return without having found a free partition. -/
def dropped (s : State) : Action → List NewmsgData
  | .attempt =>
      match s.receiver, s.datar.getSubblock false 3 with
      | .trying nmsg attempts, none => if attempts - 1 > 0 then [] else [nmsg]
      | _, _ => []
  | _ => []

def Writer.holding : Writer → List NewmsgData
  | .waiting nmsg => [nmsg]
  | .trying nmsg _ => [nmsg]
  | _ => []

def State.inFlight (s : State) : List NewmsgData := s.receiver.holding ++ s.datar.held 3

/-- The last attempt of a call finds a free partition. -/
def HasRoom (s : State) (a : Action) : Prop :=
  ∀ nmsg attempts, a = .attempt → s.receiver = .trying nmsg attempts → attempts ≤ 1 →
    ∃ k ∈ Block.region 3, s.datar.bit k = false

theorem attempt_cases {s : State} {nmsg : NewmsgData} {attempts : Nat} :
    (∃ idx, s.datar.getSubblock false 3 = some idx ∧ attempt s nmsg attempts = { s with
      datar := s.datar.write idx nmsg, semLockSigr := s.semLockSigr + 1, receiver := .leaving }) ∨
    (s.datar.getSubblock false 3 = none ∧ attempt s nmsg attempts = { s with
      receiver := if attempts - 1 > 0 then .trying nmsg (attempts - 1) else .leaving }) := by
  unfold attempt
  cases found : s.datar.getSubblock false 3 with
  | some idx => exact .inl ⟨idx, rfl, rfl⟩
  | none => exact .inr ⟨rfl, rfl⟩

theorem getData_cases {s t : State} {id : Uuid} (done : getDataFromReceiver s id = some t) :
    (s.datar.getSubblock true 3 = none ∧
      t = { s with semLockDatar := true, processorR := .idle }) ∨
    ∃ idx nmsg db, s.datar.getSubblock true 3 = some idx ∧ s.datar.partitions idx = some nmsg ∧
      s.db.storeData id nmsg.data1 (nmsg.data.take nmsg.data2) = .ok db ∧
      t = { s with datar := s.datar.toggleBit idx, semLockDatar := true, processorR := .idle,
                   db := db } := by
  unfold getDataFromReceiver at done
  split at done
  · next found => exact .inl ⟨found, (Option.some.inj done).symm⟩
  · next idx found =>
      split at done
      · cases done
      · next nmsg holds =>
          split at done
          · cases done
          · next db inserted =>
              exact .inr ⟨idx, nmsg, db, found, holds, inserted, (Option.some.inj done).symm⟩

theorem step_conserves {s t : State} {a : Action} (moved : step s a = some t) :
    ((dropped s a ++ stored s a) ++ t.inFlight).Perm (passed s a ++ s.inFlight) := by
  cases a with
  | sendToProcessor fd data =>
      simp only [step] at moved
      split at moved
      · next calm =>
          obtain rfl := Option.some.inj moved
          simp [dropped, stored, passed, State.inFlight, Writer.holding, calm]
      · cases moved
  | lockWriter =>
      simp only [step] at moved
      split at moved
      · next nmsg waiting _ =>
          obtain rfl := Option.some.inj moved
          simp [dropped, stored, passed, State.inFlight, Writer.holding, waiting]
      · cases moved
  | attempt =>
      simp only [step] at moved
      split at moved
      · next nmsg attempts trying =>
          obtain rfl := Option.some.inj moved
          simp only [dropped, stored, passed, State.inFlight, trying, List.append_nil,
            List.nil_append, Writer.holding]
          rcases attempt_cases with ⟨idx, found, after⟩ | ⟨full, after⟩
          · rw [after, found]
            exact Block.held_write found
          · rw [after, full]
            simp only
            split
            · exact List.Perm.refl _
            · exact List.Perm.refl _
      · cases moved
  | unlockWriter =>
      simp only [step] at moved
      split at moved
      · next leaving =>
          obtain rfl := Option.some.inj moved
          simp [dropped, stored, passed, State.inFlight, Writer.holding, leaving]
      · cases moved
  | signal =>
      obtain rfl := Option.some.inj moved
      exact List.Perm.refl _
  | waitSignal =>
      simp only [step] at moved
      split at moved
      · obtain rfl := Option.some.inj moved
        exact List.Perm.refl _
      · cases moved
  | lockReader =>
      simp only [step] at moved
      split at moved
      · obtain rfl := Option.some.inj moved
        exact List.Perm.refl _
      · cases moved
  | getData id =>
      simp only [step] at moved
      split at moved
      · simp only [dropped, stored, passed, State.inFlight, List.nil_append]
        rcases getData_cases moved with ⟨none, rfl⟩ | ⟨idx, nmsg, db, found, holds, -, rfl⟩
        · simp [none]
        · simp only [found, Option.bind_some, holds, Option.toList_some]
          calc
            ([nmsg] ++ (s.receiver.holding ++ (s.datar.toggleBit idx).held 3)).Perm
                (s.receiver.holding ++ ([nmsg] ++ (s.datar.toggleBit idx).held 3)) :=
              List.perm_append_comm_assoc _ _ _
            _ |>.Perm (s.receiver.holding ++ s.datar.held 3) :=
              (Block.held_clear found holds).symm.append_left _
      · cases moved

theorem step_inserts {s t : State} {a : Action} (moved : step s a = some t) :
    ∃ rows, t.db.jobScheduler = s.db.jobScheduler ++ rows ∧
      List.Forall₂ (fun nmsg (job : Job) => job.jobdata = nmsg.data.take nmsg.data2 ∧
        job.jsource = intText nmsg.data1 ∧ job.jstate = .N1) (stored s a) rows := by
  have unchanged (same : t.db = s.db) (nothing : stored s a = []) : ∃ rows,
      t.db.jobScheduler = s.db.jobScheduler ++ rows ∧
      List.Forall₂ (fun nmsg (job : Job) => job.jobdata = nmsg.data.take nmsg.data2 ∧
        job.jsource = intText nmsg.data1 ∧ job.jstate = .N1) (stored s a) rows :=
    ⟨[], by rw [same, List.append_nil], by rw [nothing]; exact List.Forall₂.nil⟩
  cases a with
  | getData id =>
      simp only [step] at moved
      split at moved
      · rcases getData_cases moved with ⟨none, rfl⟩ | ⟨idx, nmsg, db, found, holds, inserted, rfl⟩
        · exact unchanged rfl (by simp [stored, none])
        · obtain ⟨-, job, appended, -, data, source, state⟩ := storeData_ok inserted
          refine ⟨[job], appended, ?_⟩
          simp only [stored, found, Option.bind_some, holds, Option.toList_some]
          exact List.Forall₂.cons ⟨data, source, state⟩ List.Forall₂.nil
      · cases moved
  | attempt =>
      simp only [step] at moved
      split at moved
      · obtain rfl := Option.some.inj moved
        apply unchanged _ rfl
        rcases attempt_cases with ⟨idx, -, after⟩ | ⟨-, after⟩
        · rw [after]
        · rw [after]
      · cases moved
  | signal =>
      obtain rfl := Option.some.inj moved
      exact unchanged rfl rfl
  | _ =>
      simp only [step] at moved
      split at moved
      · obtain rfl := Option.some.inj moved
        exact unchanged rfl rfl
      · cases moved

/-- A step drops nothing exactly if its last attempt has room. -/
theorem dropped_nil_iff {s t : State} {a : Action} (moved : step s a = some t) :
    dropped s a = [] ↔ HasRoom s a := by
  cases a with
  | attempt =>
      simp only [step] at moved
      split at moved
      · next nmsg attempts trying =>
          simp only [dropped, HasRoom, trying]
          cases found : s.datar.getSubblock false 3 with
          | some idx =>
              obtain ⟨member, free⟩ := Block.getSubblock_some found
              exact iff_of_true rfl fun _ _ _ _ _ => ⟨idx, member, free⟩
          | none =>
              have full := Block.getSubblock_none.mp found
              simp only
              split
              · next more =>
                  refine iff_of_true rfl fun _ _ _ same last => ?_
                  injection same with _ count
                  omega
              · next last =>
                  refine iff_of_false (List.cons_ne_nil _ _) fun room => ?_
                  obtain ⟨k, member, free⟩ := room nmsg attempts trivial rfl (by omega)
                  simp [full k member] at free
      · cases moved
  | _ => simp [dropped, HasRoom]

def row (nmsg : NewmsgData) : Text × Bytea := (intText nmsg.data1, nmsg.data)

def AllStored (db : Db) (actions : List Action) (t : State) : Prop :=
  ∃ rows : List Job, t.db.jobScheduler = db.jobScheduler ++ rows ∧
    (rows.map (fun job => (job.jsource, job.jobdata)) ++ t.inFlight.map row).Perm
      ((outputs step passed (initial db) actions).map row)

theorem run_inserts {s t : State} {actions : List Action} (done : run step s actions = some t) :
    ∃ rows, t.db.jobScheduler = s.db.jobScheduler ++ rows ∧
      List.Forall₂ (fun nmsg (job : Job) => job.jobdata = nmsg.data.take nmsg.data2 ∧
        job.jsource = intText nmsg.data1 ∧ job.jstate = .N1)
        (outputs step stored s actions) rows := by
  induction actions generalizing s with
  | nil =>
      rw [← Option.some.inj done]
      exact ⟨[], (List.append_nil _).symm, List.Forall₂.nil⟩
  | cons a rest ih =>
      obtain ⟨u, head, tail⟩ := run_cons.mp done
      obtain ⟨now, first, each⟩ := step_inserts head
      obtain ⟨later, second, all⟩ := ih tail
      refine ⟨now ++ later, by rw [second, first, List.append_assoc], ?_⟩
      rw [outputs_cons head]
      exact List.rel_append each all

theorem passed_whole {s : State} {actions : List Action} :
    ∀ nmsg ∈ outputs step passed s actions, nmsg.data2 = nmsg.data.length := by
  induction actions generalizing s with
  | nil => simp [outputs]
  | cons a rest ih =>
      intro nmsg member
      rcases List.mem_append.mp member with now | later
      · cases a with
        | sendToProcessor fd data => rw [List.mem_singleton.mp now]
        | _ => cases now
      · cases moved : step s a with
        | none => simp [moved] at later
        | some u => exact ih nmsg (by simpa [moved] using later)

/-- Every message is stored exactly once if and only if no call of `send_to_processor`
finds the block full in its last attempt. -/
theorem all_stored_iff_room {db : Db} {t : State} {actions : List Action}
    (done : run step (initial db) actions = some t) :
    AllStored db actions t ↔ Guarded step HasRoom (initial db) actions := by
  have empty : (initial db).inFlight = [] := by
    simp [State.inFlight, initial, Writer.holding, Block.held_empty]
  have moved := run_conserves (fun _ => True) State.inFlight passed
    (fun s a => dropped s a ++ stored s a) trivial done (fun _ _ _ _ _ => trivial)
    fun _ _ _ _ => step_conserves
  rw [empty, List.append_nil] at moved
  have balance := ((outputs_append dropped stored (initial db) actions).symm.append_right
    t.inFlight).trans moved
  obtain ⟨rows, appended, each⟩ := run_inserts done
  rw [← outputs_nil_iff dropped HasRoom done fun _ _ _ => dropped_nil_iff]
  constructor
  · rintro ⟨rows', appended', all⟩
    obtain rfl := List.append_cancel_left (appended.symm.trans appended')
    have counted := all.length_eq
    have total := balance.length_eq
    have inserted := each.length_eq
    simp only [List.length_append, List.length_map] at counted total
    exact List.eq_nil_of_length_eq_zero (by omega)
  · intro nothing
    rw [nothing, List.nil_append] at balance
    refine ⟨rows, appended, ?_⟩
    have whole (nmsg : NewmsgData) (member : nmsg ∈ outputs step stored (initial db) actions) :
        nmsg.data2 = nmsg.data.length :=
      passed_whole nmsg (balance.subset (List.mem_append_left _ member))
    have views : rows.map (fun job => (job.jsource, job.jobdata)) =
        (outputs step stored (initial db) actions).map row := by
      refine forall₂_map_eq each fun nmsg member job ⟨data, source, _⟩ => ?_
      rw [source, data, whole nmsg member, List.take_length, row]
    rw [views, ← List.map_append]
    exact balance.map row

def oneCall (attempts : Nat) : List Action :=
  [.sendToProcessor 5 [1]] ++ [.lockWriter] ++ List.replicate attempts .attempt ++ [.unlockWriter]

theorem all_stored_one_call :
    ∃ t, run step (initial Db.sampleDb) (oneCall 1 ++ [.waitSignal, .lockReader, .getData (Uuid.ofNat 1)])
        = some t ∧
      AllStored Db.sampleDb (oneCall 1 ++ [.waitSignal, .lockReader, .getData (Uuid.ofNat 1)]) t := by
  have room : Guarded step HasRoom (initial Db.sampleDb)
      (oneCall 1 ++ [.waitSignal, .lockReader, .getData (Uuid.ofNat 1)]) := by
    have free : Guarded step (fun s _ => ∃ k ∈ Block.region 3, s.datar.bit k = false)
        (initial Db.sampleDb)
        (oneCall 1 ++ [.waitSignal, .lockReader, .getData (Uuid.ofNat 1)]) := by decide +kernel
    exact guarded_mono (fun s a room _ _ _ _ _ => room) free
  exact ⟨_, rfl, (all_stored_iff_room rfl).mpr room⟩

def overrun : List Action := (List.replicate 80 (oneCall 1)).flatten ++ oneCall 3

set_option maxRecDepth 10000 in
/-- The message of the last call is nowhere. -/
theorem overrun_drops_message :
    ∃ t, run step (initial Db.sampleDb) overrun = some t ∧ ¬ AllStored Db.sampleDb overrun t := by
  have counted : (run step (initial Db.sampleDb) overrun).map (fun t =>
      (t.db.jobScheduler.length, t.inFlight.length)) = some (1, 80) := by decide +kernel
  have calls : (outputs step passed (initial Db.sampleDb) overrun).length = 81 := by decide +kernel
  obtain ⟨t, done, lengths⟩ := Option.map_eq_some_iff.mp counted
  obtain ⟨jobs, flying⟩ := Prod.mk.inj lengths
  refine ⟨t, done, ?_⟩
  rintro ⟨rows, appended, all⟩
  have total := all.length_eq
  rw [appended] at jobs
  simp only [List.length_append, List.length_map, flying, calls] at total jobs
  have start : Db.sampleDb.jobScheduler.length = 1 := rfl
  omega

end DataBlock

end FileSharing
