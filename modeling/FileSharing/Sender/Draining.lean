import FileSharing.Library.Measures
import FileSharing.Sender.Progress

/-! The sending side left to itself: with no more operations of the other programs, `notif`,
`processor_s` and `sender` come to rest, and then nothing is left that could be sent. -/

namespace FileSharing

open Library RunJobs

namespace SenderSide

/-- A step of `notif`, `processor_s` or `sender` in which no `send` fails. -/
def Inner (_ : State) : Action → Prop
  | .database _ => False
  | .send dataSent => 0 ≤ dataSent
  | _ => True

def ProcessorS.work : ProcessorS → Nat
  | .waiting => 0
  | .reading => 5
  | .deleting _ _ => 4
  | .commanding => 3
  | .marking _ _ => 2
  | .giving => 1

def Sender.work : Sender → Nat
  | .waiting => 0
  | .receiving => 2
  | .executing _ => 9
  | .reporting _ => 8
  | .fetching => 1
  | .sending sndmsg totalDataSent => (sndmsg.size - totalDataSent).toNat + 8
  | .settling _ => 7

def messageWork (sndmsg : SendMessage) : Nat := sndmsg.size + 8

def jobWork (job : Job) : Nat := if job.jstate = .S4 then job.jobdata.length + 11 else 0

def commandWork (sm : SendersComm) : Nat :=
  if sm.mtype = .openConn ∨ sm.mtype = .closeConn then 11 else 0

def State.work (s : State) : Nat :=
  7 * s.db.noti1sender + 6 * s.semLockSigps + 3 * s.semLockSigs + s.processorS.work +
    s.sender.work + 8 * (s.comms.held 1).length + ((s.datas.held 3).map messageWork).sum +
    (s.db.sendersComms.map commandWork).sum + (s.db.jobScheduler.map jobWork).sum

/-- What the two programs have in hand: the command that `processor_s` is about to mark is still
there, and `sender` executes commands only. -/
structure InHand (s : State) : Prop where
  marking : ∀ idx row, s.processorS = .marking idx row → row ∈ commands s.db
  executing : ∀ command, s.sender = .executing command → IsOrder command

section InHand

variable {s t : State} {a : Action} {db db' : Db}

theorem kept_insertComms {mtype : MType} {rows : List (Int × Option Int)}
    (done : rows.foldlM (insertComm mtype) db = .ok db') :
    ∀ sm ∈ db.sendersComms, sm ∈ db'.sendersComms := by
  refine foldlM_keeps (fun u : Db => ∀ sm ∈ db.sendersComms, sm ∈ u.sendersComms) ?_
    (fun _ member => member) done
  intro u row v _ kept inserted sm member
  rcases insertComm_ok inserted with ⟨same, -⟩ | ⟨mdata2, -, -, appended, -⟩
  · rw [same]
    exact kept sm member
  · rw [appended]
    exact List.mem_append_left _ (kept sm member)

theorem kept_others {op : Operation} (other : others db op = true)
    (done : db.perform op = some db') : ∀ sm ∈ db.sendersComms, sm ∈ db'.sendersComms := by
  by_cases pass : ∃ env, op = .runJobs env
  · obtain ⟨env, rfl⟩ := pass
    obtain rfl := Option.some.inj done
    rcases Db.attempt_cases db (runJobs env db) with same | ⟨u, ok, same⟩
    · rw [same]
      exact fun _ member => member
    · rw [same]
      obtain ⟨v, before, managed⟩ := runJobs_managed.mp ok
      obtain ⟨w, opened, closed⟩ := bind_ok.mp managed
      have rows : (registerConns v).sendersComms = db.sendersComms :=
        (registerConns_ok v).1.trans (beforeConns_ok before).1.sendersComms
      intro sm member
      exact kept_insertComms closed sm (kept_insertComms opened sm (rows ▸ member))
  · rw [(others_conns other (fun env equal => pass ⟨env, equal⟩) done).1.sendersComms]
    exact fun _ member => member

theorem inHand_step (attended : Attended s) (inHand : InHand s) (moves : Moves s a t) : InHand t := by
  obtain ⟨marking, executing⟩ := inHand
  cases moves with
  | waitSigps => exact ⟨nofun, executing⟩
  | readNothing => exact ⟨nofun, executing⟩
  | readConnection => exact ⟨nofun, executing⟩
  | readMessage => exact ⟨nofun, executing⟩
  | readOther => exact ⟨nofun, executing⟩
  | deleteComms => exact ⟨nofun, executing⟩
  | sendNothing => exact ⟨nofun, executing⟩
  | sendCommand place found listed =>
      refine ⟨fun idx row same => ?_, executing⟩
      obtain ⟨-, rfl⟩ := ProcessorS.marking.inj same
      exact listed
  | updateComms => exact ⟨nofun, executing⟩
  | giveNothing => exact ⟨nofun, executing⟩
  | giveJob => exact ⟨nofun, executing⟩
  | waitSigs => exact ⟨marking, nofun⟩
  | getNothing => exact ⟨marking, nofun⟩
  | getCommand place free found holds =>
      refine ⟨marking, fun command same => ?_⟩
      obtain rfl := Sender.executing.inj same
      apply attended.orders
      exact (Block.held_clear found holds).mem_iff.mpr List.mem_cons_self
  | getOther => exact ⟨marking, nofun⟩
  | connectNone => exact ⟨marking, nofun⟩
  | connect => exact ⟨marking, nofun⟩
  | connectFails => exact ⟨marking, nofun⟩
  | close => exact ⟨marking, nofun⟩
  | reportConnection => exact ⟨marking, nofun⟩
  | dropConnection => exact ⟨marking, nofun⟩
  | getNoData => exact ⟨marking, nofun⟩
  | getData => exact ⟨marking, nofun⟩
  | getEmpty => exact ⟨marking, nofun⟩
  | sendMore => exact ⟨marking, nofun⟩
  | sendDone => exact ⟨marking, nofun⟩
  | reportMessage => exact ⟨marking, nofun⟩
  | dropMessage => exact ⟨marking, nofun⟩
  | signal => exact ⟨marking, executing⟩
  | database other done =>
      refine ⟨fun idx row same => ?_, executing⟩
      obtain ⟨inside, test⟩ := List.mem_filter.mp (marking idx row same)
      exact List.mem_filter.mpr ⟨kept_others other done row inside, test⟩

end InHand

section Work

variable {s t : State} {a : Action} {db : Db}

theorem jobWork_update (db : Db) (condition : Job → Bool) {change : Job → Job}
    (less : ∀ job, jobWork (change job) ≤ jobWork job) :
    ((db.updateJobs condition change).jobScheduler.map jobWork).sum ≤
      (db.jobScheduler.map jobWork).sum := by
  rw [Db.updateJobs, List.map_map]
  apply List.sum_le_sum
  intro job _
  rw [Function.comp_apply]
  split
  · exact less job
  · exact Nat.le_refl _

theorem jobWork_settled (job : Job) (status : Int) :
    jobWork { job with jstate := if status > 0 then .C else .D } = 0 := by
  unfold jobWork
  split
  · rfl
  · rfl

theorem jobWork_appendW {js : Job} (member : js ∈ db.jobScheduler) (ready : js.jstate = .S4) :
    ((db.appendW js.jobid).jobScheduler.map jobWork).sum + (js.jobdata.length + 11) ≤
      (db.jobScheduler.map jobWork).sum := by
  have marked (job : Job) : jobWork { job with jstate := .W job.jstate } = 0 := rfl
  have falls := sum_falls (f := fun job => jobWork (if job.jobid = js.jobid
    then { job with jstate := .W job.jstate } else job)) (g := jobWork) (l := db.jobScheduler)
    (fun job _ => by
      split
      · exact Nat.zero_le _
      · exact Nat.le_refl _) member
  rw [if_pos rfl, marked] at falls
  have before : jobWork js = js.jobdata.length + 11 := if_pos ready
  rw [before] at falls
  rw [Db.appendW, Db.updateJobs, List.map_map]
  simpa only [Function.comp_def, decide_eq_true_eq, Nat.add_zero] using falls

theorem noti_update (condition : Job → Bool) {change : Job → Job}
    (other : ∀ job, (change job).jstate ≠ .S4) :
    (db.updateJobs condition change).noti1sender = db.noti1sender := by
  simp [Db.updateJobs, other]

theorem commandWork_update {row : SendersComm} (listed : row ∈ commands db) :
    ((db.sUpdateComms row.scommid).sendersComms.map commandWork).sum + 11 ≤
      (db.sendersComms.map commandWork).sum := by
  obtain ⟨member, command⟩ := List.mem_filter.mp listed
  have marked (sm : SendersComm) : commandWork { sm with mtype := .W sm.mtype } = 0 := rfl
  have falls := sum_falls (f := fun sm => commandWork (if sm.scommid = row.scommid
    then { sm with mtype := .W sm.mtype } else sm)) (g := commandWork) (l := db.sendersComms)
    (fun sm _ => by
      split
      · exact Nat.zero_le _
      · exact Nat.le_refl _) member
  rw [if_pos rfl, marked] at falls
  have before : commandWork row = 11 := if_pos (by simpa using command)
  rw [before] at falls
  rw [Db.sUpdateComms, List.map_map]
  exact falls

theorem commandWork_delete (db : Db) (scommid : Nat) :
    ((db.sDeleteComms scommid).sendersComms.map commandWork).sum ≤
      (db.sendersComms.map commandWork).sum := sum_filter_le _

theorem work_send {sndmsg : SendMessage} {totalDataSent dataSent : Int} (accepted : 0 ≤ dataSent)
    (place : s.sender = .sending sndmsg totalDataSent) :
    (sendTurn s sndmsg totalDataSent dataSent).work < s.work := by
  unfold sendTurn
  dsimp only
  split
  · next more =>
      simp only [State.work, Sender.work, place]
      omega
  · simp only [State.work, Sender.work, place]
    omega

theorem work_moves (attended : Attended s) (inHand : InHand s) (moves : Moves s a t)
    (signal : a ≠ .signal) (quiet : ∀ op, a ≠ .database op) (sends : ∀ dataSent, a ≠ .send dataSent) :
    t.work < s.work := by
  have shape := attended.shape
  cases moves with
  | signal => exact absurd rfl signal
  | waitSigps place count =>
      simp only [State.work, place, count, ProcessorS.work]
      omega
  | readNothing place =>
      simp only [State.work, place, ProcessorS.work]
      omega
  | readConnection place =>
      simp only [State.work, place, ProcessorS.work, Db.sUpdateConns]
      omega
  | readMessage place found =>
      rename_i idx msgsts _
      have lower := Block.held_clear_outside (Block.getSubblock_some found).2
        (Block.upper_not_lower (Block.getSubblock_some found).1)
      have jobs := jobWork_update s.db (fun job => job.jobid = msgsts.uuid)
        fun job => (jobWork_settled job (msgsts.status % 256)).trans_le (Nat.zero_le _)
      have told : (s.db.updateStatus msgsts.uuid (msgsts.status % 256)).noti1sender =
          s.db.noti1sender := noti_update _ fun job => by
        dsimp only
        split
        · decide
        · decide
      have comms : (s.db.updateStatus msgsts.uuid (msgsts.status % 256)).sendersComms =
          s.db.sendersComms := rfl
      simp only [State.work, place, ProcessorS.work, lower, told, comms]
      rw [Db.updateStatus]
      omega
  | readOther place found =>
      have lower := Block.held_clear_outside (Block.getSubblock_some found).2
        (Block.upper_not_lower (Block.getSubblock_some found).1)
      simp only [State.work, place, ProcessorS.work, lower]
      omega
  | deleteComms place =>
      rename_i idx scommid
      have found := (shape.deleting _ _ place).1
      have lower := Block.held_clear_outside (Block.getSubblock_some found).2
        (Block.upper_not_lower (Block.getSubblock_some found).1)
      have commands := commandWork_delete s.db scommid
      have told : (s.db.sDeleteComms scommid).noti1sender = s.db.noti1sender := rfl
      have jobs : (s.db.sDeleteComms scommid).jobScheduler = s.db.jobScheduler := rfl
      simp only [State.work, place, ProcessorS.work, lower, told, jobs]
      omega
  | sendNothing place =>
      simp only [State.work, place, ProcessorS.work]
      omega
  | sendCommand place found listed =>
      simp only [State.work, place, ProcessorS.work]
      omega
  | updateComms place =>
      rename_i idx row
      have count := Block.held_length_write (commandOf row) (shape.marking _ _ place)
      have commands := commandWork_update (inHand.marking _ _ place)
      have told : (s.db.sUpdateComms row.scommid).noti1sender = s.db.noti1sender := rfl
      have jobs : (s.db.sUpdateComms row.scommid).jobScheduler = s.db.jobScheduler := rfl
      simp only [State.work, place, ProcessorS.work, count, told, jobs]
      omega
  | giveNothing place =>
      simp only [State.work, place, ProcessorS.work]
      omega
  | giveJob place found first =>
      rename_i choice idx sc js
      obtain ⟨-, member, ready, -⟩ := Db.mem_sGetInfo.mp (firstInfo_mem first)
      have messages := ((Block.held_write (a := sendMessageOf sc js) found).map messageWork).sum_eq
      rw [List.map_cons, List.sum_cons] at messages
      have size : messageWork (sendMessageOf sc js) = js.jobdata.length + 8 := rfl
      have jobs := jobWork_appendW member ready
      have told : (s.db.appendW js.jobid).noti1sender = s.db.noti1sender :=
        noti_update _ fun job => by simp
      have comms : (s.db.appendW js.jobid).sendersComms = s.db.sendersComms := rfl
      simp only [State.work, place, ProcessorS.work, messages, size, told, comms]
      omega
  | waitSigs place count =>
      simp only [State.work, place, count, Sender.work]
      omega
  | getNothing place =>
      simp only [State.work, place, Sender.work]
      omega
  | getCommand place free found holds =>
      have count := Block.held_length_clear shape.comms found
      simp only [State.work, place, Sender.work, count]
      omega
  | getOther place free found =>
      have count := Block.held_length_clear shape.comms found
      simp only [State.work, place, Sender.work, count]
      omega
  | connectNone place =>
      simp only [State.work, place, Sender.work]
      omega
  | connect place =>
      simp only [State.work, place, Sender.work]
      omega
  | connectFails place =>
      simp only [State.work, place, Sender.work]
      omega
  | close place =>
      simp only [State.work, place, Sender.work]
      omega
  | reportConnection place free found =>
      rename_i idx cncsts
      have lower := Block.held_write_outside (a := SenderComm.connection cncsts)
        (Block.getSubblock_some found).2 (Block.upper_not_lower (Block.getSubblock_some found).1)
      simp only [State.work, place, Sender.work, lower]
      omega
  | dropConnection place =>
      simp only [State.work, place, Sender.work]
      omega
  | getNoData place =>
      simp only [State.work, place, Sender.work]
      omega
  | getData place found holds =>
      have messages := ((Block.held_clear found holds).map messageWork).sum_eq
      rw [List.map_cons, List.sum_cons, messageWork] at messages
      simp only [State.work, place, Sender.work, messages]
      omega
  | getEmpty place found holds =>
      obtain ⟨sndmsg, filled⟩ := shape.datas _ (Block.getSubblock_some found).2
      cases holds.symm.trans filled
  | sendMore => exact absurd rfl (sends _)
  | sendDone => exact absurd rfl (sends _)
  | reportMessage place free found =>
      rename_i idx msgsts
      have lower := Block.held_write_outside (a := SenderComm.message msgsts)
        (Block.getSubblock_some found).2 (Block.upper_not_lower (Block.getSubblock_some found).1)
      simp only [State.work, place, Sender.work, lower]
      omega
  | dropMessage place =>
      simp only [State.work, place, Sender.work]
      omega
  | database => exact absurd rfl (quiet _)

end Work

section Rest

variable {s t : State} {a : Action}

structure Sound (s : State) : Prop where
  attended : Attended s
  driven : Driven s
  inHand : InHand s
  numbered : Numbered s.db

theorem Sound.answered (sound : Sound s) (a : Action) : Answered s a := by
  cases a with
  | giveData choice => exact fun _ row member => sound.numbered row.2 (Db.mem_sGetInfo.mp member).2.1
  | _ => trivial

theorem step_of_notified (other : a ≠ .signal) (moved : notifiedStep s a = some t) :
    step s a = some t := by
  cases a with
  | signal => exact absurd rfl other
  | _ => exact moved

theorem sound_step (sound : Sound s) (numeric : NumericUpdate s a)
    (moved : notifiedStep s a = some t) : Sound t := by
  obtain ⟨attended, driven⟩ := notified_step sound.attended sound.driven (sound.answered a) moved
  by_cases signal : a = .signal
  · subst signal
    obtain ⟨noti, -, rfl⟩ := notify_some moved
    exact ⟨attended, driven, ⟨sound.inHand.marking, sound.inHand.executing⟩, sound.numbered⟩
  · have moves := step_moves (step_of_notified signal moved)
    exact ⟨attended, driven, inHand_step sound.attended sound.inHand moves,
      numbered_step sound.numbered numeric moves⟩

theorem numeric_of_inner (inner : Inner s a) : NumericUpdate s a := by
  cases a with
  | database op => exact absurd inner id
  | _ => exact nofun

theorem work_step (sound : Sound s) (inner : Inner s a) (moved : notifiedStep s a = some t) :
    t.work < s.work := by
  by_cases signal : a = .signal
  · subst signal
    obtain ⟨noti, count, rfl⟩ := notify_some moved
    simp only [State.work, count]
    omega
  · have plain := step_of_notified signal moved
    by_cases sends : ∃ dataSent, a = .send dataSent
    · obtain ⟨dataSent, rfl⟩ := sends
      simp only [step] at plain
      split at plain
      · next sndmsg total place =>
          split at plain
          · exact Option.some.inj plain ▸ work_send inner place
          · cases plain
      · cases plain
    · refine work_moves sound.attended sound.inHand (step_moves plain) signal ?_ fun dataSent same =>
        sends ⟨dataSent, same⟩
      rintro op rfl
      exact inner

theorem inner_falls : Falls notifiedStep Inner Sound State.work := by
  intro s a t sound inner moved
  exact ⟨sound_step sound (numeric_of_inner inner) moved, work_step sound inner moved⟩

theorem giveData_ends (sound : Sound s) : ∃ choice t, giveData s choice = some t := by
  unfold giveData
  split
  · exact ⟨0, _, rfl⟩
  · by_cases nonempty : s.db.sGetInfo = []
    · refine ⟨0, { s with processorS := .waiting }, ?_⟩
      simp [firstInfo, nonempty, pure, Except.pure]
    · have deliverable : Deliverable s.db :=
        fun row member => sound.numbered row.2 (Db.mem_sGetInfo.mp member).2.1
      obtain ⟨choice, row, first⟩ := firstInfo_exists deliverable nonempty
      exact ⟨choice, _, by rw [first]; rfl⟩

/-- None of the three programs is stuck but at its semaphore or socket. -/
theorem blocked_of_final (sound : Sound s) (final : Final notifiedStep Inner s) : Blocked s := by
  have stuck (a : Action) (inner : Inner s a) (other : a ≠ .signal) : step s a = none := by
    have none := final a inner
    cases a with
    | signal => exact absurd rfl other
    | _ => exact none
  have waiting : s.processorS = .waiting := by
    cases place : s.processorS with
    | waiting => rfl
    | reading =>
        have none := stuck .readMsg trivial (by simp)
        simp [step, place] at none
    | deleting idx scommid =>
        have none := stuck .deleteComms trivial (by simp)
        simp [step, place] at none
    | commanding =>
        have none := stuck (.sendMsg 0) trivial (by simp)
        simp only [step, place, sendMsg] at none
        split at none
        · cases none
        · split at none
          · cases none
          · next some =>
              rw [List.getElem?_eq_getElem (List.length_pos_iff.mpr some)] at none
              cases none
    | marking idx row =>
        have none := stuck .updateComms trivial (by simp)
        simp [step, place] at none
    | giving =>
        obtain ⟨choice, t, ends⟩ := giveData_ends sound
        have none := stuck (.giveData choice) trivial (by simp)
        rw [step_giving place, ends] at none
        cases none
  have unlocked : s.processorS.locksComms = false := by
    rw [waiting]
    rfl
  have idle : s.sender = .waiting := by
    cases place : s.sender with
    | waiting => rfl
    | receiving =>
        have none := stuck .getMessage trivial (by simp)
        simp [step, place, unlocked] at none
    | executing command =>
        have order := sound.inHand.executing command place
        cases command with
        | openConn opncn =>
            have none := stuck (.connect none false) trivial (by simp)
            simp [step, place, connect] at none
        | closeConn clscn =>
            have none := stuck .close trivial (by simp)
            simp [step, place] at none
        | connection cncsts => exact absurd order id
        | message msgsts => exact absurd order id
    | reporting cncsts =>
        have none := stuck .reportConnection trivial (by simp)
        simp [step, place, unlocked] at none
    | fetching =>
        have none := stuck .getData trivial (by simp)
        simp [step, place] at none
    | sending sndmsg total =>
        have none := stuck (.send 0) (Int.le_refl 0) (by simp)
        simp [step, place] at none
    | settling msgsts =>
        have none := stuck .reportMessage trivial (by simp)
        simp [step, place, unlocked] at none
  constructor
  · exact waiting
  · cases count : s.semLockSigps with
    | zero => rfl
    | succ sigps =>
        have none := stuck .waitSigps trivial (by simp)
        simp [step, waiting, count] at none
  · exact idle
  · cases count : s.semLockSigs with
    | zero => rfl
    | succ sigs =>
        have none := stuck .waitSigs trivial (by simp)
        simp [step, idle, count] at none
  · cases count : s.db.noti1sender with
    | zero => rfl
    | succ noti =>
        have none := final .signal trivial
        simp [notifiedStep, notify, count] at none

structure Emptied (s : State) : Prop where
  commands : s.comms.held 1 = []
  statuses : s.comms.held 2 = []
  messages : s.datas.held 3 = []

theorem emptied_of_blocked (attended : Attended s) (blocked : Blocked s) : Emptied s := by
  obtain ⟨-, -, commands, messages, statuses⟩ := attended
  rw [blocked.semLockSigs, blocked.sender] at commands messages
  rw [blocked.semLockSigps, blocked.processorS] at statuses
  constructor
  · exact List.length_eq_zero_iff.mp (Nat.le_zero.mp commands)
  · exact List.length_eq_zero_iff.mp (Nat.le_zero.mp statuses)
  · exact List.length_eq_zero_iff.mp (Nat.le_zero.mp messages)

theorem sound_initial {db : Db} (comms : db.sendersComms = []) (conns : db.sendingConns = [])
    (addresses : (db.sysinfo.map SysInfo.ipaddress).Nodup) (numbered : Numbered db)
    (sigs sigps : Nat) : Sound { initial db sigs with semLockSigps := sigps } :=
  ⟨attended_initial db sigs sigps, driven_initial comms conns addresses sigs sigps, ⟨nofun, nofun⟩,
    numbered⟩

end Rest

/-- In every state of a run in which users set numbers for priorities: left to themselves, and
while no `send` fails, `notif`, `processor_s` and `sender` come to rest after a bounded number of
steps. Then they sleep, the blocks are empty, and nothing is left that could be handed over. -/
theorem comes_to_rest {db : Db} {sigs sigps : Nat} {actions : List Action} {s : State}
    (comms : db.sendersComms = []) (conns : db.sendingConns = [])
    (addresses : (db.sysinfo.map SysInfo.ipaddress).Nodup) (numbered : Numbered db)
    (done : run notifiedStep { initial db sigs with semLockSigps := sigps } actions = some s)
    (numeric : Guarded notifiedStep NumericUpdate { initial db sigs with semLockSigps := sigps }
      actions) :
    (∀ more t, run notifiedStep s more = some t → Guarded notifiedStep Inner s more →
      more.length + t.work ≤ s.work ∧
        (Final notifiedStep Inner t → Blocked t ∧ Emptied t ∧ ¬ Stranded t.db)) ∧
    ∃ more t, run notifiedStep s more = some t ∧ Guarded notifiedStep Inner s more ∧
      Final notifiedStep Inner t := by
  have sound : Sound s := guarded_run_keeps (fun _ _ _ kept allowed moved =>
    sound_step kept allowed moved) (sound_initial comms conns addresses numbered sigs sigps) numeric done
  constructor
  · intro more t further inner
    have later := inner_falls.keeps sound inner further
    refine ⟨inner_falls.bounded sound inner further, fun final => ?_⟩
    have blocked := blocked_of_final later final
    exact ⟨blocked, emptied_of_blocked later.attended blocked,
      not_stranded later.attended later.driven blocked⟩
  · exact inner_falls.ends sound

instance decidableInner (s : State) (a : Action) : Decidable (Inner s a) :=
  match a with
  | .database _ => .isFalse id
  | .send dataSent => inferInstanceAs (Decidable (0 ≤ dataSent))
  | .signal => .isTrue trivial
  | .waitSigps => .isTrue trivial
  | .readMsg => .isTrue trivial
  | .deleteComms => .isTrue trivial
  | .sendMsg _ => .isTrue trivial
  | .updateComms => .isTrue trivial
  | .giveData _ => .isTrue trivial
  | .waitSigs => .isTrue trivial
  | .getMessage => .isTrue trivial
  | .connect _ _ => .isTrue trivial
  | .close => .isTrue trivial
  | .reportConnection => .isTrue trivial
  | .getData => .isTrue trivial
  | .reportMessage => .isTrue trivial

theorem first_file_rests :
    ∃ s, run notifiedStep { initial knownDb 0 with semLockSigps := 0 } firstFile = some s ∧
      (∀ more t, run notifiedStep s more = some t → Guarded notifiedStep Inner s more →
        more.length ≤ 195) ∧
      ∃ more t, run notifiedStep s more = some t ∧ Blocked t ∧ Emptied t ∧ ¬ Stranded t.db := by
  obtain ⟨s, done, work⟩ := Option.map_eq_some_iff.mp
    (by decide +kernel : (run notifiedStep { initial knownDb 0 with semLockSigps := 0 }
      firstFile).map (fun s => decide (s.work ≤ 195)) = some true)
  have numeric : Guarded notifiedStep NumericUpdate { initial knownDb 0 with semLockSigps := 0 }
      firstFile := by decide +kernel
  have numbered : Numbered knownDb := by unfold Numbered; decide +kernel
  obtain ⟨bounded, more, t, further, inner, final⟩ :=
    comes_to_rest rfl rfl (by decide +kernel) numbered done numeric
  refine ⟨s, done, fun more t further inner => ?_, more, t, further, ?_⟩
  · have bound := (bounded more t further inner).1
    have low := of_decide_eq_true work
    omega
  · exact (bounded more t further inner).2 final

end SenderSide

end FileSharing
