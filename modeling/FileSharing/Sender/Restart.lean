import FileSharing.Sender.Conservation

/-! `processor_s` is stopped and started again while the shared blocks, `sender` and the
database go on: `main` clears the comms block and the lower half of the data block. -/

namespace FileSharing

open Library

namespace Restart

open SenderSide

inductive Action where
  | side (a : SenderSide.Action)
  | restart

/-- The start-up of `processor_s`, up to the loop of `run_process`. -/
def restart (s : State) : State := { s with
  comms := (s.comms.unsetAllBits 2).unsetAllBits 3
  datas := s.datas.unsetAllBits 1
  processorS := .waiting }

/-- `processor_s` may stop wherever it does not hold the lock of a block. -/
def step (s : State) : Action → Option State
  | .side a => SenderSide.step s a
  | .restart => if s.processorS.locksComms then none else some (restart s)

/-- The jobs that a step takes from the blocks and gives to nobody. -/
def lost (s : State) : Action → List Uuid
  | .side a => dropped s a
  | .restart => (s.datas.held 1).map SendMessage.uuid ++ (s.comms.held 2).filterMap jobOf

def handed (s : State) : Action → List Uuid
  | .side a => SenderSide.handed s a
  | .restart => []

def settled (s : State) : Action → List Uuid
  | .side a => SenderSide.settled s a
  | .restart => []

/-- A restart finds no record in the lower half of the data block and no status of a job in
the comms block, and a status of a job always finds a free partition. -/
def Safe (s : State) : Action → Prop
  | .side a => HasRoom s a
  | .restart => s.datas.held 1 = [] ∧ ∀ record ∈ s.comms.held 2, jobOf record = none

structure Kept (t : State) : Prop where
  occupied : ∀ k ∈ Block.region 3, t.datas.bit k = true →
    ∃ sndmsg, t.datas.partitions k = some sndmsg ∧ sndmsg.uuid ∈ waitingIds t.db
  present : ∀ id ∈ waitingIds t.db, id ∉ t.sender.holding →
    (∃ sndmsg ∈ t.datas.held 3, sndmsg.uuid = id) ∨
      ∃ msgsts, SenderComm.message msgsts ∈ t.comms.held 2 ∧ msgsts.uuid = id

section Step

variable {s t : State} {a : Action}

theorem lost_nil_iff : lost s .restart = [] ↔ Safe s .restart := by
  simp [lost, Safe, List.filterMap_eq_nil_iff]

theorem restart_done (done : step s .restart = some t) : t = restart s := by
  simp only [step] at done
  split at done
  · cases done
  · exact (Option.some.inj done).symm

theorem shape_restart (shape : Shape s) : Shape (restart s) := by
  constructor
  · exact Block.filled_unset (by decide) shape.datas
  · exact Block.filled_unset (by decide) (Block.filled_unset (by decide) shape.comms)
  · nofun
  · nofun

theorem restart_conserves : (lost s .restart ++ (restart s).places).Perm s.places := by
  have lower : (s.datas.unsetAllBits 1).held 1 = [] := Block.held_unset (by decide)
  have upper : (s.datas.unsetAllBits 1).held 2 = s.datas.held 2 :=
    Block.held_unset_outside (by decide) (by decide)
  have statuses : ((s.comms.unsetAllBits 2).unsetAllBits 3).held 2 = [] := by
    have all : ((s.comms.unsetAllBits 2).unsetAllBits 3).held 3 = [] :=
      Block.held_unset (by decide)
    rw [Block.held_halves] at all
    exact (List.append_eq_nil_iff.mp all).2
  simp only [lost, State.places, restart, Block.held_halves, lower, upper, statuses,
    List.nil_append, List.filterMap_nil, List.append_nil, List.map_append, List.append_assoc]
  apply List.Perm.append_left
  calc
    ((s.comms.held 2).filterMap jobOf ++
          ((s.datas.held 2).map SendMessage.uuid ++ s.sender.holding)).Perm
        ((s.datas.held 2).map SendMessage.uuid ++
          ((s.comms.held 2).filterMap jobOf ++ s.sender.holding)) :=
      List.perm_append_comm_assoc _ _ _
    _ |>.Perm ((s.datas.held 2).map SendMessage.uuid ++
          (s.sender.holding ++ (s.comms.held 2).filterMap jobOf)) :=
        List.perm_append_comm.append_left _

theorem inv_step (inv : Inv s) (done : step s a = some t) : Inv t := by
  cases a with
  | side a => exact SenderSide.inv_step inv (step_moves done)
  | restart =>
      obtain rfl := restart_done done
      have kept := restart_conserves (s := s)
      constructor
      · exact shape_restart inv.shape
      · exact inv.keys
      · intro id member
        exact inv.waits id (kept.subset (List.mem_append_right _ member))
      · exact (List.nodup_append.mp (kept.nodup_iff.mpr inv.nodup)).2.1

theorem step_conserves (inv : Inv s) (done : step s a = some t) :
    ((lost s a ++ settled s a) ++ t.places).Perm (handed s a ++ s.places) := by
  cases a with
  | side a => exact SenderSide.step_conserves inv.shape (step_moves done)
  | restart =>
      obtain rfl := restart_done done
      simp only [settled, handed, List.append_nil, List.nil_append]
      exact restart_conserves

theorem waiting_conserves (inv : Inv s) (done : step s a = some t) :
    (settled s a ++ waitingIds t.db).Perm (handed s a ++ waitingIds s.db) := by
  cases a with
  | side a => exact SenderSide.waiting_conserves inv (step_moves done)
  | restart =>
      obtain rfl := restart_done done
      exact .refl _

theorem lost_iff (done : step s a = some t) : lost s a = [] ↔ Safe s a := by
  cases a with
  | side a => exact dropped_nil_iff (step_moves done)
  | restart => exact lost_nil_iff

end Step

/-- The blocks keep what they should exactly if every job in S-4W is in a place. -/
theorem kept_iff {t : State} (inv : Inv t) : Kept t ↔ waitingIds t.db ⊆ t.places := by
  have places (id : Uuid) : id ∈ t.places ↔ (∃ sndmsg ∈ t.datas.held 3, sndmsg.uuid = id) ∨
      id ∈ t.sender.holding ∨
        ∃ msgsts, SenderComm.message msgsts ∈ t.comms.held 2 ∧ msgsts.uuid = id := by
    have status (record : SenderComm) : jobOf record = some id ↔
        ∃ msgsts, record = .message msgsts ∧ msgsts.uuid = id := by
      cases record <;> simp [jobOf]
    simp only [State.places, List.mem_append, List.mem_map, List.mem_filterMap, status]
    grind
  constructor
  · intro kept id waits
    by_cases held : id ∈ t.sender.holding
    · exact (places id).mpr (.inr (.inl held))
    · rcases kept.present id waits held with data | status
      · exact (places id).mpr (.inl data)
      · exact (places id).mpr (.inr (.inr status))
  · intro inside
    constructor
    · intro k member marked
      obtain ⟨sndmsg, holds⟩ := inv.shape.datas k marked
      have held : sndmsg ∈ t.datas.held 3 := mem_contents.mpr ⟨k, member, marked, holds⟩
      exact ⟨sndmsg, holds, inv.waits _ ((places _).mpr (.inl ⟨sndmsg, held, rfl⟩))⟩
    · intro id waits elsewhere
      rcases (places id).mp (inside waits) with data | held | status
      · exact .inl data
      · exact absurd held elsewhere
      · exact .inr status

/-- A run strands no job exactly if every restart finds the lower half of the data block
and the statuses of jobs empty, and no status is dropped. -/
theorem kept_iff_safe {db : Db} {sigs : Nat} {actions : List Action} {t : State} (keys : db.Keys)
    (fresh : ∀ job ∈ db.jobScheduler, job.jstate ≠ .S4W)
    (done : run step (initial db sigs) actions = some t) :
    Kept t ↔ Guarded step Safe (initial db sigs) actions := by
  have start := inv_initial keys sigs
  have keeps (s : State) (a : Action) (t : State) (inv : Inv s) (moved : step s a = some t) :
      Inv t := inv_step inv moved
  have last : Inv t := run_keeps keeps start done
  have none : waitingIds (initial db sigs).db = [] := by
    simpa [initial, waitingIds, waitingJobs] using fresh
  have places := run_conserves Inv State.places handed (fun s a => lost s a ++ settled s a) start
    done keeps fun s a t inv moved => step_conserves inv moved
  have waiting := run_conserves Inv (fun s => waitingIds s.db) handed settled start done keeps
    fun s a t inv moved => waiting_conserves inv moved
  rw [places_initial, List.append_nil] at places
  rw [none, List.append_nil] at waiting
  -- a job in S-4W is in a place or was lost
  have balance : (waitingIds t.db).Perm (outputs step lost (initial db sigs) actions ++ t.places) := by
    apply (List.perm_append_left_iff (outputs step settled (initial db sigs) actions)).mp
    calc
      (outputs step settled (initial db sigs) actions ++ waitingIds t.db).Perm
          (outputs step handed (initial db sigs) actions) := waiting
      _ |>.Perm (outputs step (fun s a => lost s a ++ settled s a) (initial db sigs) actions ++
            t.places) := places.symm
      _ |>.Perm ((outputs step lost (initial db sigs) actions ++
            outputs step settled (initial db sigs) actions) ++ t.places) :=
          (outputs_append lost settled (initial db sigs) actions).append_right _
      _ |>.Perm (outputs step settled (initial db sigs) actions ++
            (outputs step lost (initial db sigs) actions ++ t.places)) := by
          rw [List.append_assoc]
          exact List.perm_append_comm_assoc _ _ _
  have apart := (List.nodup_append.mp (balance.nodup_iff.mp (nodup_waitingIds last.keys))).2.2
  rw [kept_iff last, ← outputs_nil_iff lost Safe done fun s a t moved => lost_iff moved]
  constructor
  · intro inside
    apply List.eq_nil_iff_forall_not_mem.mpr
    intro id gone
    exact apart id gone id (inside (balance.mem_iff.mpr (List.mem_append_left _ gone))) rfl
  · intro nothing
    rw [nothing, List.nil_append] at balance
    exact balance.subset

def sentBefore : List Action :=
  (slowSender 1 ++ [SenderSide.Action.waitSigps, .readMsg]).map .side ++ [.restart]

def isSide : Action → Bool
  | .side _ => true
  | .restart => false

theorem kept_sent_before :
    ∃ t, run step (initial (readyDb 1) 0) sentBefore = some t ∧ Kept t := by
  have runs : (run step (initial (readyDb 1) 0) sentBefore).isSome = true := by decide +kernel
  obtain ⟨t, done⟩ := Option.isSome_iff_exists.mp runs
  have safe : Guarded step Safe (initial (readyDb 1) 0) sentBefore := by
    have free : Guarded step (fun s a => (∃ k ∈ Block.region 2, s.comms.bit k = false) ∧
        (isSide a = true ∨ s.datas.held 1 = [] ∧ ∀ record ∈ s.comms.held 2, jobOf record = none))
        (initial (readyDb 1) 0) sentBefore := by decide +kernel
    refine guarded_mono (fun s a => ?_) free
    rintro ⟨room, later⟩
    cases a with
    | side a => exact fun _ _ _ => room
    | restart => exact later.resolve_left Bool.false_ne_true
  refine ⟨t, done, (kept_iff_safe ?_ ?_ done).mpr safe⟩
  · exact ⟨by decide +kernel, by decide +kernel⟩
  · decide +kernel

/-- A job is handed over and `processor_s` is started again before `sender` takes it. -/
theorem restart_strands_job :
    ∃ t, run step (initial (readyDb 1) 0) (openAndHand.map .side ++ [.restart]) = some t ∧
      ¬ Kept t := by
  have ends : (run step (initial (readyDb 1) 0) (openAndHand.map .side ++ [.restart])).map
      (fun t => (waitingIds t.db, t.sender.holding, (t.datas.held 3).length,
        (t.comms.held 2).length)) = some ([Uuid.ofNat 1], [], 0, 0) := by decide +kernel
  obtain ⟨t, done, same⟩ := Option.map_eq_some_iff.mp ends
  simp only [Prod.mk.injEq, List.length_eq_zero_iff] at same
  obtain ⟨waits, held, data, statuses⟩ := same
  refine ⟨t, done, fun kept => ?_⟩
  have stranded := kept.present (Uuid.ofNat 1) (by simp [waits]) (by simp [held])
  simp [data, statuses] at stranded

end Restart

end FileSharing
