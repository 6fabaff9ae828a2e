import FileSharing.Library.Measures
import FileSharing.Receiver.Wakeups
import Mathlib.Data.Fintype.Card

/-! The receiving side left to itself: with no more messages and no more capacities, `notif`,
`processor_r` and the receiver come to rest, and then all that waited has been stored. -/

namespace FileSharing

open Library RunJobs Addresses

namespace Wakeups

/-- A step of the three programs that takes something: the receiver finds a capacity, and
`send_msg_to_receiver` has room if it has a row. -/
def Inner (s : State) : Action → Prop
  | .sendToProcessor _ => False
  | .sendMessageToProcessor _ => False
  | .capacity _ => False
  | .getMessageFromProcessor => ¬ Free s.commr 1
  | .sendMsgToReceiver rcomid => HasRoom s (.sendMsgToReceiver rcomid)
  | .notify | .waitSigr | .getMessageFromReceiver | .getDataFromReceiver _ => True

def ProcessorR.work : ProcessorR → Nat
  | .waiting => 0
  | .message => 4
  | .data => 3
  | .comms => 2

def State.work (s : State) : Nat :=
  6 * s.db.noti1receiver + 5 * s.semLockSigr + s.processorR.work + (s.commr.held 1).length

def stored (nmsg : NewmsgData) : Bytea := nmsg.data.take nmsg.data2

def State.arrived (s : State) : List Bytea :=
  s.db.jobScheduler.map Job.jobdata ++ (s.datar.held 3).map stored

def Rooted (db : Db) : Prop :=
  ∃ top, db.jobScheduler.filter (fun job => job.jparentJobid = job.jobid) = [top]

structure Roomy (s : State) : Prop where
  rooted : Rooted s.db
  few : s.db.jobScheduler.length + (s.datar.held 3).length < 10 ^ 36

section Ids

theorem digits_inj (count : Nat) {n m : Nat} (small : n < 10 ^ count) (small' : m < 10 ^ count)
    (same : ∀ k < count, n / 10 ^ k % 10 = m / 10 ^ k % 10) : n = m := by
  induction count generalizing n m with
  | zero => omega
  | succ count ih =>
      have last : n % 10 = m % 10 := by simpa using same 0 (Nat.succ_pos count)
      have rest : n / 10 = m / 10 := by
        refine ih ?_ ?_ fun k below => ?_
        · rw [Nat.pow_succ] at small
          omega
        · rw [Nat.pow_succ] at small'
          omega
        · rw [Nat.div_div_eq_div_mul, Nat.div_div_eq_div_mul, Nat.mul_comm, ← Nat.pow_succ]
          exact same (k + 1) (Nat.succ_lt_succ below)
      omega

theorem ofNat_inj {n m : Nat} (small : n < 10 ^ 36) (small' : m < 10 ^ 36)
    (same : Uuid.ofNat n = Uuid.ofNat m) : n = m := by
  refine digits_inj 36 small small' fun k below => ?_
  have texts := congrArg (fun id => id.text[k]?) same
  simp only [Uuid.ofNat, List.getElem?_map, List.getElem?_range below, Option.map_some,
    Option.some.injEq] at texts
  have digits := congrArg UInt8.toNat texts
  rw [digit_toNat (Nat.mod_lt _ (by decide)), digit_toNat (Nat.mod_lt _ (by decide))] at digits
  exact Nat.add_left_cancel digits

theorem exists_fresh {ids : List Uuid} (few : ids.length < 10 ^ 36) : ∃ id, id ∉ ids := by
  by_contra all
  simp only [not_exists, not_not] at all
  have image : ((Finset.range (10 ^ 36)).image Uuid.ofNat).card = 10 ^ 36 := by
    rw [Finset.card_image_of_injOn, Finset.card_range]
    intro n small m small' same
    exact ofNat_inj (Finset.mem_range.mp small) (Finset.mem_range.mp small') same
  have inside : (Finset.range (10 ^ 36)).image Uuid.ofNat ⊆ ids.toFinset := by
    intro id _
    exact List.mem_toFinset.mpr (all id)
  have count := (Finset.card_le_card inside).trans (List.toFinset_card_le ids)
  omega

end Ids

structure Sound (data : List Bytea) (s : State) : Prop where
  covered : Covered s
  roomy : Roomy s
  same : s.arrived.Perm data

section Steps

variable {s t : State} {a : Action} {data : List Bytea} {db db' : Db}

theorem storeData_total {id : Uuid} (fd : Int) (bytes : Bytea) {top : Job}
    (rooted : db.jobScheduler.filter (fun job => job.jparentJobid = job.jobid) = [top])
    (fresh : id ∉ db.jobids) : ∃ db', db.storeData id fd bytes = .ok db' := by
  have listed : top ∈ db.jobScheduler.filter fun job => job.jparentJobid = job.jobid :=
    rooted ▸ List.mem_singleton.mpr rfl
  have known : top.jobid ∈ db.jobids := List.mem_map_of_mem (List.mem_filter.mp listed).1
  unfold Db.storeData Db.insertUnderRoot Db.root
  rw [rooted]
  exact insertJob_total fresh known

theorem rooted_storeData {id : Uuid} {fd : Int} {bytes : Bytea} {top : Job}
    (rooted : db.jobScheduler.filter (fun job => job.jparentJobid = job.jobid) = [top])
    (done : db.storeData id fd bytes = .ok db') :
    db'.jobScheduler.filter (fun job => job.jparentJobid = job.jobid) = [top] := by
  obtain ⟨parent, member, self, inserted⟩ := insertUnderRoot_ok done
  obtain ⟨appended, -, absent, -⟩ := insertJob_ok inserted
  have known : parent.jobid ∈ db.jobids := List.mem_map_of_mem member
  have other : parent.jobid ≠ id := fun same => absent (same ▸ known)
  rw [appended, List.filter_append, List.filter_cons_of_neg (by simpa using other), rooted]
  rfl

theorem storeCommr_jobs (db : Db) (record : Option ReceiverComm) :
    (storeCommr db record).jobScheduler = db.jobScheduler := by
  obtain ⟨rows, same⟩ := storeCommr_rows db record
  rw [same]

theorem prGetcomms_jobs {rcomid : Nat} {row : ReceiversComm}
    (found : db.prGetcomms rcomid = some (row, db')) : db'.jobScheduler = db.jobScheduler := by
  obtain ⟨row', -, pair⟩ := Option.map_eq_some_iff.mp found
  obtain ⟨-, rfl⟩ := Prod.mk.inj pair
  rfl

theorem Sound.quiet (sound : Sound data s) (covered : Covered t)
    (jobs : t.db.jobScheduler = s.db.jobScheduler) (datar : t.datar = s.datar) : Sound data t := by
  obtain ⟨-, ⟨rooted, few⟩, same⟩ := sound
  refine ⟨covered, ⟨?_, ?_⟩, ?_⟩
  · rwa [Rooted, jobs]
  · rwa [jobs, datar]
  · rwa [State.arrived, jobs, datar]

theorem Sound.store {id : Uuid} (sound : Sound data s) (covered : Covered t)
    (done : getDataFromReceiver s id = some t) : Sound data t := by
  unfold getDataFromReceiver at done
  cases found : s.datar.getSubblock true 3 with
  | none =>
      rw [found] at done
      obtain rfl := Option.some.inj done
      exact sound.quiet covered rfl rfl
  | some idx =>
      rw [found] at done
      obtain ⟨nmsg, holds, rest⟩ := Option.bind_eq_some_iff.mp done
      obtain ⟨db, insert, last⟩ := Option.bind_eq_some_iff.mp rest
      obtain rfl := Option.some.inj last
      have inserted := toOption_some insert
      obtain ⟨-, ⟨⟨top, rooted⟩, few⟩, same⟩ := sound
      obtain ⟨-, job, appended, -, bytes, -, -⟩ := storeData_ok inserted
      have taken := Block.held_clear found holds
      refine ⟨covered, ⟨⟨top, rooted_storeData rooted inserted⟩, ?_⟩, ?_⟩
      · have count := taken.length_eq
        simp only [appended, List.length_append, List.length_cons, List.length_nil] at count ⊢
        omega
      · refine List.Perm.trans ?_ same
        simp only [State.arrived, appended, List.map_append, List.map_cons, List.map_nil, bytes,
          List.append_assoc]
        apply List.Perm.append_left
        exact (taken.map stored).symm

theorem work_getDataFromReceiver {id : Uuid} (turn : s.processorR = .data)
    (done : getDataFromReceiver s id = some t) : t.work < s.work := by
  unfold getDataFromReceiver at done
  cases found : s.datar.getSubblock true 3 with
  | none =>
      rw [found] at done
      obtain rfl := Option.some.inj done
      simp only [State.work, turn, ProcessorR.work]
      omega
  | some idx =>
      rw [found] at done
      obtain ⟨nmsg, -, rest⟩ := Option.bind_eq_some_iff.mp done
      obtain ⟨db, insert, last⟩ := Option.bind_eq_some_iff.mp rest
      obtain rfl := Option.some.inj last
      have noti := (storeData_frame (toOption_some insert)).2.1
      simp only [State.work, turn, ProcessorR.work, noti]
      omega

theorem sendMsgToReceiver_kept {rcomid : Nat} (done : sendMsgToReceiver s rcomid = some t) :
    t.db.jobScheduler = s.db.jobScheduler ∧ t.datar = s.datar := by
  unfold sendMsgToReceiver at done
  split at done
  · obtain rfl := Option.some.inj done
    exact ⟨rfl, rfl⟩
  · split at done
    · obtain rfl := Option.some.inj done
      exact ⟨rfl, rfl⟩
    · obtain ⟨⟨row, db⟩, read, rfl⟩ := Option.map_eq_some_iff.mp done
      exact ⟨prGetcomms_jobs read, rfl⟩

theorem work_sendMsgToReceiver {rcomid : Nat} (turn : s.processorR = .comms)
    (done : sendMsgToReceiver s rcomid = some t) : t.work < s.work := by
  unfold sendMsgToReceiver at done
  cases found : s.commr.getSubblock false 1 with
  | none =>
      rw [found] at done
      obtain rfl := Option.some.inj done
      simp only [State.work, turn, ProcessorR.work]
      omega
  | some idx =>
      rw [found] at done
      dsimp only at done
      split at done
      · obtain rfl := Option.some.inj done
        simp only [State.work, turn, ProcessorR.work]
        omega
      · obtain ⟨⟨row, db⟩, read, rfl⟩ := Option.map_eq_some_iff.mp done
        have noti := (prGetcomms_some read).2.2
        have count := Block.held_length_write (ReceiverComm.capacity (capacityInfo row)) found
        simp only [State.work, turn, ProcessorR.work, noti]
        omega

theorem inner_falls : Falls step Inner (Sound data) State.work := by
  intro s a t sound inner moved
  have room : HasRoom s a := by
    cases a with
    | sendMsgToReceiver rcomid => exact inner
    | _ => trivial
  have covered := covered_step sound.covered room moved
  cases a with
  | sendToProcessor nmsg => exact inner.elim
  | sendMessageToProcessor rcvm => exact inner.elim
  | capacity row => exact inner.elim
  | getMessageFromProcessor =>
      obtain rfl := Option.some.inj moved
      cases found : s.commr.getSubblock true 1 with
      | none =>
          have free : Free s.commr 1 := Block.getSubblock_none.mp found
          exact absurd free inner
      | some idx =>
          simp only [getMessageFromProcessor, found] at covered ⊢
          have count := Block.held_length_clear sound.covered.commr found
          refine ⟨sound.quiet covered rfl rfl, ?_⟩
          simp only [State.work]
          omega
  | notify =>
      simp only [step] at moved
      split at moved
      · next noti delivered =>
          obtain rfl := Option.some.inj moved
          refine ⟨sound.quiet covered rfl rfl, ?_⟩
          simp only [State.work, delivered]
          omega
      · cases moved
  | waitSigr =>
      simp only [step] at moved
      split at moved
      · next sigr waits posted =>
          obtain rfl := Option.some.inj moved
          refine ⟨sound.quiet covered rfl rfl, ?_⟩
          simp only [State.work, waits, posted, ProcessorR.work]
          omega
      · cases moved
  | getMessageFromReceiver =>
      simp only [step] at moved
      split at moved
      · next turn =>
          obtain rfl := Option.some.inj moved
          cases found : s.commr.getSubblock true 2 with
          | none =>
              simp only [getMessageFromReceiver, found] at covered ⊢
              refine ⟨sound.quiet covered rfl rfl, ?_⟩
              simp only [State.work, turn, ProcessorR.work]
              omega
          | some idx =>
              obtain ⟨member, taken⟩ := Block.getSubblock_some found
              have noti := (storeCommr_frame s.db (s.commr.partitions idx)).2
              have lower := Block.held_clear_outside taken (Block.upper_not_lower member)
              simp only [getMessageFromReceiver, found] at covered ⊢
              refine ⟨sound.quiet covered (storeCommr_jobs _ _) rfl, ?_⟩
              simp only [State.work, turn, ProcessorR.work, noti, lower]
              omega
      · cases moved
  | getDataFromReceiver id =>
      simp only [step] at moved
      split at moved
      · next turn =>
          exact ⟨sound.store covered moved, work_getDataFromReceiver turn moved⟩
      · cases moved
  | sendMsgToReceiver rcomid =>
      simp only [step] at moved
      split at moved
      · next turn =>
          obtain ⟨jobs, datar⟩ := sendMsgToReceiver_kept moved
          exact ⟨sound.quiet covered jobs datar, work_sendMsgToReceiver turn moved⟩
      · cases moved

end Steps

section Rest

variable {s t : State} {data : List Bytea}

/-- A state in which none of the three can go on. -/
theorem asleep_of_final (sound : Sound data s) (final : Final step Inner s) : Asleep s := by
  have lower : Free s.commr 1 := by
    by_contra occupied
    have none := final .getMessageFromProcessor occupied
    cases none
  have waiting : s.processorR = .waiting := by
    cases place : s.processorR with
    | waiting => rfl
    | message =>
        have none := final .getMessageFromReceiver trivial
        simp [step, place] at none
    | data =>
        obtain ⟨top, rooted⟩ := sound.roomy.rooted
        have few : s.db.jobids.length < 10 ^ 36 := by
          have room := sound.roomy.few
          rw [Db.jobids, List.length_map]
          omega
        obtain ⟨id, fresh⟩ := exists_fresh few
        have none := final (.getDataFromReceiver id) trivial
        cases found : s.datar.getSubblock true 3 with
        | none => simp [step, place, getDataFromReceiver, found] at none
        | some idx =>
            obtain ⟨nmsg, holds⟩ := sound.covered.datar idx (Block.getSubblock_some found).2
            obtain ⟨db, inserted⟩ :=
              storeData_total nmsg.data1 (nmsg.data.take nmsg.data2) rooted fresh
            simp [step, place, getDataFromReceiver, found, holds, inserted, Except.toOption] at none
    | comms =>
        have first : 0 ∈ Block.region 1 := Block.mem_lower.mpr (by decide)
        have none (rcomid : Nat) : step s (.sendMsgToReceiver rcomid) = none :=
          final _ (.inr ⟨0, first, lower 0 first⟩)
        cases found : s.commr.getSubblock false 1 with
        | none =>
            have taken : s.commr.bit 0 = true := Block.getSubblock_none.mp found 0 first
            rw [lower 0 first] at taken
            cases taken
        | some idx =>
            cases rows : s.db.receiversComms with
            | nil =>
                have stuck := none 0
                simp [step, place, sendMsgToReceiver, found, rows] at stuck
            | cons row rest =>
                have stuck := none row.rcomid
                simp [step, place, sendMsgToReceiver, found, rows, Db.prGetcomms] at stuck
  constructor
  · exact waiting
  · cases count : s.semLockSigr with
    | zero => rfl
    | succ sigr =>
        have none := final .waitSigr trivial
        simp [step, waiting, count] at none
  · cases count : s.db.noti1receiver with
    | zero => rfl
    | succ noti =>
        have none := final .notify trivial
        simp [step, count] at none
  · exact lower

theorem drained_of_covered (covered : Covered s) (asleep : Asleep s) : Drained s := by
  obtain ⟨datar, commr, messages, data, capacities⟩ := covered
  have none : s.wakeups = 0 := by rw [State.wakeups, asleep.semLockSigr, asleep.delivered]
  simp [none, asleep.processorR] at messages data capacities
  constructor
  · exact free_of_held datar (by simp [data])
  · exact free_of_held commr (by simp [messages])
  · exact capacities

theorem covered_initial (root : Uuid) (own : SelfInfo) : Covered (initial root own) := by
  constructor
  · exact Block.filled_empty
  · exact Block.filled_empty
  · simp [initial, Block.held_empty]
  · simp [initial, Block.held_empty]
  · simp [initial, Db.installed]

theorem rooted_step {a : Action} (rooted : Rooted s.db) (moved : step s a = some t) : Rooted t.db := by
  have same (jobs : t.db.jobScheduler = s.db.jobScheduler) : Rooted t.db := by rwa [Rooted, jobs]
  cases a with
  | sendToProcessor nmsg =>
      obtain rfl := Option.some.inj moved
      apply same
      unfold sendToProcessor
      split
      · rfl
      · rfl
  | sendMessageToProcessor rcvm =>
      obtain rfl := Option.some.inj moved
      apply same
      unfold sendMessageToProcessor
      split
      · rfl
      · rfl
  | getMessageFromProcessor =>
      obtain rfl := Option.some.inj moved
      apply same
      unfold getMessageFromProcessor
      split
      · rfl
      · rfl
  | capacity row =>
      obtain rfl := Option.some.inj moved
      exact same (onlySysinfo_createComms s.db row).1.jobScheduler
  | notify =>
      simp only [step] at moved
      split at moved
      · exact same (Option.some.inj moved ▸ rfl)
      · cases moved
  | waitSigr =>
      simp only [step] at moved
      split at moved
      · exact same (Option.some.inj moved ▸ rfl)
      · cases moved
  | getMessageFromReceiver =>
      simp only [step] at moved
      split at moved
      · obtain rfl := Option.some.inj moved
        apply same
        unfold getMessageFromReceiver
        split
        · exact storeCommr_jobs _ _
        · rfl
      · cases moved
  | getDataFromReceiver id =>
      simp only [step] at moved
      split at moved
      · unfold getDataFromReceiver at moved
        split at moved
        · exact same (Option.some.inj moved ▸ rfl)
        · obtain ⟨nmsg, -, rest⟩ := Option.bind_eq_some_iff.mp moved
          obtain ⟨db, insert, last⟩ := Option.bind_eq_some_iff.mp rest
          obtain rfl := Option.some.inj last
          obtain ⟨top, before⟩ := rooted
          exact ⟨top, rooted_storeData before (toOption_some insert)⟩
      · cases moved
  | sendMsgToReceiver rcomid =>
      simp only [step] at moved
      split at moved
      · exact same (sendMsgToReceiver_kept moved).1
      · cases moved

theorem sound_start {root : Uuid} {own : SelfInfo} {actions : List Action}
    (done : run step (initial root own) actions = some s)
    (room : Guarded step HasRoom (initial root own) actions)
    (few : s.db.jobScheduler.length + (s.datar.held 3).length < 10 ^ 36) :
    Sound s.arrived s := by
  have covered : Covered s := guarded_run_keeps (fun _ _ _ covered room moved =>
    covered_step covered room moved) (covered_initial root own) room done
  have single : Rooted (initial root own).db :=
    ⟨_, List.filter_cons_of_pos (decide_eq_true rfl)⟩
  have keeps (s : State) (a : Action) (t : State) (rooted : Rooted s.db) (moved : step s a = some t) :
      Rooted t.db := rooted_step rooted moved
  have rooted : Rooted s.db := run_keeps keeps single done
  exact ⟨covered, ⟨rooted, few⟩, List.Perm.refl _⟩

end Rest

/-- In every state of a run in which `send_msg_to_receiver` had room whenever it had a row: left to
themselves, and while it still has room for its rows, `notif`, `processor_r` and the receiver come
to rest after a bounded number of steps. Then they sleep, no work is left, and the data that waited
is in the table, each once. -/
theorem receiver_rests {root : Uuid} {own : SelfInfo} {actions : List Action} {s : State}
    (done : run step (initial root own) actions = some s)
    (room : Guarded step HasRoom (initial root own) actions)
    (few : s.db.jobScheduler.length + (s.datar.held 3).length < 10 ^ 36) :
    (∀ more t, run step s more = some t → Guarded step Inner s more →
      more.length + t.work ≤ s.work ∧ (Final step Inner t → Asleep t ∧ Drained t ∧
        (t.db.jobScheduler.map Job.jobdata).Perm s.arrived)) ∧
    ∃ more t, run step s more = some t ∧ Guarded step Inner s more ∧ Final step Inner t := by
  have sound := sound_start done room few
  constructor
  · intro more t further inner
    have later := inner_falls.keeps sound inner further
    refine ⟨inner_falls.bounded sound inner further, fun final => ?_⟩
    have asleep := asleep_of_final later final
    have drained := drained_of_covered later.covered asleep
    refine ⟨asleep, drained, ?_⟩
    have none : t.datar.held 3 = [] := Block.held_of_none (Block.getSubblock_none.mpr drained.data)
    have same := later.same
    rwa [State.arrived, none, List.map_nil, List.append_nil] at same
  · exact inner_falls.ends sound

section Samples

def incoming : List Action := [.sendToProcessor ⟨7, 3, [1, 2, 3]⟩, .capacity m1Row]

theorem incoming_rests : ∃ s, run step sampleState incoming = some s ∧
    (∀ more t, run step s more = some t → Guarded step Inner s more → more.length ≤ 11) ∧
    ∃ more t, run step s more = some t ∧ Drained t ∧
      (t.db.jobScheduler.map Job.jobdata).Perm [ascii "__ROOT__", [1, 2, 3]] := by
  obtain ⟨s, done, known⟩ := Option.map_eq_some_iff.mp
    (by decide +kernel : (run step sampleState incoming).map
      (fun s => (s.db.jobScheduler.length + (s.datar.held 3).length, s.work, s.arrived)) =
        some (2, 11, [ascii "__ROOT__", [1, 2, 3]]))
  simp only [Prod.mk.injEq] at known
  obtain ⟨rows, work, data⟩ := known
  have few : s.db.jobScheduler.length + (s.datar.held 3).length < 10 ^ 36 := by omega
  obtain ⟨bounded, more, t, further, inner, final⟩ := receiver_rests done (by decide +kernel) few
  refine ⟨s, done, fun more t further inner => ?_, more, t, further, ?_⟩
  · have bound := (bounded more t further inner).1
    omega
  · obtain ⟨-, drained, same⟩ := (bounded more t further inner).2 final
    exact ⟨drained, data ▸ same⟩

end Samples

end Wakeups

end FileSharing
