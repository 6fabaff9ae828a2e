import FileSharing.Sender.System

/-! The jobs in S-4W: each is in the data block, with `sender`, or in the upper half of the
comms block, as long as no status is dropped. -/

namespace FileSharing

open Library

namespace SenderSide

def waitingJobs (db : Db) : List (Uuid × Text) :=
  (db.jobScheduler.filter fun job => job.jstate = .S4W).map fun job => (job.jobid, job.jdestination)

def waitingIds (db : Db) : List Uuid := (waitingJobs db).map Prod.fst

def jobOf : SenderComm → Option Uuid
  | .message msgsts => some msgsts.uuid
  | _ => none

def Sender.holding : Sender → List Uuid
  | .sending sndmsg _ => [sndmsg.uuid]
  | .settling msgsts => [msgsts.uuid]
  | _ => []

def State.places (s : State) : List Uuid :=
  (s.datas.held 3).map SendMessage.uuid ++ (s.sender.holding ++ (s.comms.held 2).filterMap jobOf)

def handed (s : State) : Action → List Uuid
  | .giveData choice =>
      match s.datas.getSubblock false 3, firstInfo s.db choice with
      | some _, some (some (_, js)) => [js.jobid]
      | _, _ => []
  | _ => []

def settled (s : State) : Action → List Uuid
  | .readMsg => (((s.comms.getSubblock true 2).bind s.comms.partitions).bind jobOf).toList
  | _ => []

def dropped (s : State) : Action → List Uuid
  | .reportMessage =>
      match s.sender, s.comms.getSubblock false 2 with
      | .settling msgsts, none => [msgsts.uuid]
      | _, _ => []
  | _ => []

/-- Whenever `sender` reports the status of a job, the upper half has a free partition. -/
def HasRoom (s : State) (a : Action) : Prop :=
  ∀ msgsts, a = .reportMessage → s.sender = .settling msgsts →
    ∃ k ∈ Block.region 2, s.comms.bit k = false

section Waiting

variable {db db' : Db}

theorem mem_waitingJobs {id : Uuid} {destination : Text} :
    (id, destination) ∈ waitingJobs db ↔ ∃ job ∈ db.jobScheduler, job.jstate = .S4W ∧
      job.jobid = id ∧ job.jdestination = destination := by
  simp [waitingJobs, and_assoc]

theorem mem_waitingIds {id : Uuid} :
    id ∈ waitingIds db ↔ ∃ job ∈ db.jobScheduler, job.jstate = .S4W ∧ job.jobid = id := by
  simp [waitingIds, waitingJobs, and_assoc]

theorem nodup_waitingIds (keys : db.Keys) : (waitingIds db).Nodup := by
  rw [waitingIds, waitingJobs, List.map_map]
  exact keys.jobids.sublist (List.filter_sublist.map Job.jobid)

theorem waiting_same (same : db'.jobScheduler = db.jobScheduler) :
    waitingJobs db' = waitingJobs db := by
  rw [waitingJobs, same, waitingJobs]

theorem waiting_append {rows : List Job} (appended : db'.jobScheduler = db.jobScheduler ++ rows)
    (other : ∀ job ∈ rows, job.jstate ≠ .S4W) : waitingJobs db' = waitingJobs db := by
  have none : rows.filter (fun job => job.jstate = .S4W) = [] :=
    List.filter_eq_nil_iff.mpr fun job member => by simpa using other job member
  rw [waitingJobs, appended, List.filter_append, none, List.append_nil, waitingJobs]

theorem waiting_map {change : Job → Job} (rows : db'.jobScheduler = db.jobScheduler.map change)
    (kept : ∀ job, job.jstate ≠ .S4W ∧ (change job).jstate ≠ .S4W ∨
      (change job).jstate = job.jstate ∧ (change job).jobid = job.jobid ∧
        (change job).jdestination = job.jdestination) : waitingJobs db' = waitingJobs db := by
  rw [waitingJobs, rows, waitingJobs]
  induction db.jobScheduler with
  | nil => rfl
  | cons job rest ih =>
      rw [List.map_cons, List.filter_cons, List.filter_cons]
      rcases kept job with ⟨before, after⟩ | ⟨state, id, destination⟩
      · simp [before, after, ih]
      · by_cases waits : job.jstate = .S4W
        · simp [state, waits, id, destination, ih]
        · simp [state, waits, ih]

theorem waiting_evolves {w : Scope} {made : Job → Prop} (evolves : Evolves w made db db')
    (other : ∀ job, made job → job.jstate ≠ .S4W) : waitingJobs db' = waitingJobs db := by
  obtain ⟨-, change, fresh, kept, rows, each⟩ := evolves
  have first : waitingJobs { db with jobScheduler := db.jobScheduler.map change } =
      waitingJobs db := by
    refine waiting_map rfl fun job => ?_
    by_cases waits : job.jstate = .S4W
    · rw [(kept job).fixed (waits ▸ fixed_s4w)]
      exact .inr ⟨rfl, rfl, rfl⟩
    · exact .inl ⟨waits, fun later => waits (Promotes.of_s4w (later ▸ (kept job).jstate))⟩
  exact (waiting_append rows fun job member => other job (each job member)).trans first

theorem update_one (keys : db.Keys) {js : Job} (member : js ∈ db.jobScheduler) :
    ∃ left right, db.jobScheduler = left ++ js :: right ∧ ∀ change : Job → Job,
      (db.updateJobs (fun job => job.jobid = js.jobid) change).jobScheduler =
        left ++ change js :: right := by
  obtain ⟨left, right, split⟩ := List.append_of_mem member
  have unique := keys.jobids
  rw [Db.jobids, split, List.map_append, List.map_cons, List.nodup_middle, List.nodup_cons,
    List.mem_append] at unique
  have apart : ∀ part : List Job, (∀ job ∈ part, job.jobid ≠ js.jobid) → ∀ change : Job → Job,
      (part.map fun job => if decide (job.jobid = js.jobid) = true then change job else job) =
        part := by
    intro part other change
    refine (List.map_congr_left fun job inside => ?_).trans (List.map_id part)
    simp [other job inside]
  refine ⟨left, right, split, fun change => ?_⟩
  rw [Db.updateJobs, split, List.map_append, List.map_cons, apart left, apart right]
  · simp
  · exact fun job inside same => unique.1 (.inr (same ▸ List.mem_map_of_mem inside))
  · exact fun job inside same => unique.1 (.inl (same ▸ List.mem_map_of_mem inside))

theorem waiting_enter (keys : db.Keys) {js : Job} (member : js ∈ db.jobScheduler)
    (state : js.jstate = .S4) :
    (waitingIds (db.appendW js.jobid)).Perm (js.jobid :: waitingIds db) := by
  obtain ⟨left, right, split, after⟩ := update_one keys member
  simp only [waitingIds, waitingJobs, Db.appendW, after, split, List.map_map, List.filter_append,
    List.filter_cons, state, List.map_append, List.map_cons, decide_true, if_true]
  exact List.perm_middle

theorem waiting_leave (keys : db.Keys) {id : Uuid} (waits : id ∈ waitingIds db) (status : Int) :
    (waitingIds db).Perm (id :: waitingIds (db.updateStatus id status)) := by
  obtain ⟨js, member, state, rfl⟩ := mem_waitingIds.mp waits
  obtain ⟨left, right, split, after⟩ := update_one keys member
  have settled : (if status > 0 then JState.C else .D) ≠ .S4W := by split <;> decide
  simp only [waitingIds, waitingJobs, Db.updateStatus, after, split, List.map_map,
    List.filter_append, List.filter_cons, state, settled, List.map_append, List.map_cons,
    decide_true, decide_false, if_true, Bool.false_eq_true, if_false]
  exact List.perm_middle

theorem waiting_others {op : Operation} (keys : db.Keys) (other : others db op = true)
    (step : db.perform op = some db') : waitingJobs db' = waitingJobs db := by
  have attempt {done : Sql Db} (keeps : ∀ u, done = .ok u → waitingJobs u = waitingJobs db) :
      waitingJobs (db.attempt done) = waitingJobs db := by
    rcases Db.attempt_cases db done with same | ⟨u, ok, same⟩
    · rw [same]
    · rw [same, keeps u ok]
  cases op with
  | runJobs env =>
      refine Option.some.inj step ▸ attempt fun u done => waiting_evolves (runJobs_ok done) ?_
      rintro job (state | state)
      · simp [state]
      · simp [state]
  | importFile file =>
      refine Option.some.inj step ▸ attempt fun u done => waiting_same ?_
      rw [importFile_ok done]
  | sendFile id fileName destination =>
      refine Option.some.inj step ▸ attempt fun u done => ?_
      rcases (sendFile_ok done).2 with same | ⟨job, appended, -, -, state, -⟩
      · exact waiting_same same
      · exact waiting_append appended (by simp [state])
  | updateJobPriority id priority =>
      refine Option.some.inj step ▸ waiting_map rfl fun job => .inr ?_
      split <;> exact ⟨rfl, rfl, rfl⟩
  | storeData id fd data =>
      refine Option.some.inj step ▸ attempt fun u done => ?_
      obtain ⟨-, job, appended, -, -, -, state⟩ := storeData_ok done
      exact waiting_append appended (by simp [state])
  | retrieve sc job => cases other
  | updateStatus id status =>
      obtain rfl := Option.some.inj step
      obtain ⟨js, member, test⟩ := List.any_eq_true.mp other
      simp only [Bool.and_eq_true, decide_eq_true_eq] at test
      obtain ⟨rfl, state⟩ := test
      obtain ⟨left, right, split, after⟩ := update_one keys member
      have settled : (if status > 0 then JState.C else .D) ≠ .S4W := by split <;> decide
      simp only [waitingJobs, Db.updateStatus, after, split, List.filter_append, List.filter_cons,
        state, settled, decide_false, Bool.false_eq_true, if_false]
      rfl
  | updateConns ipaddress fd status => cases other
  | updateComms scommid => cases other
  | deleteComms scommid => cases other
  | getcomms rcomid =>
      obtain ⟨row, -, -, rfl⟩ := Db.perform_getcomms step
      rfl
  | insertConns fd ipaddr status =>
      obtain ⟨rows, same⟩ := Db.rInsertConns_frame db fd ipaddr status
      exact Option.some.inj step ▸ waiting_same (by rw [same])

end Waiting

structure Shape (s : State) : Prop where
  datas : s.datas.Filled
  comms : s.comms.Filled
  deleting : ∀ idx scommid, s.processorS = .deleting idx scommid →
    s.comms.getSubblock true 2 = some idx ∧
      ∃ cncsts, s.comms.partitions idx = some (.connection cncsts) ∧ cncsts.scommid = scommid
  marking : ∀ idx row, s.processorS = .marking idx row → s.comms.getSubblock false 1 = some idx

section Step

variable {s t : State} {a : Action}

theorem shape_initial (db : Db) (sigs : Nat) : Shape (initial db sigs) :=
  ⟨Block.filled_empty, Block.filled_empty, nofun, nofun⟩

theorem shape_step (shape : Shape s) (moves : Moves s a t) : Shape t := by
  obtain ⟨datas, comms, deleting, marking⟩ := shape
  -- a step of `sender` on the comms block, while `processor_s` is not inside
  have outside {comms' : Block SenderComm} {sender : Sender} (filled : comms'.Filled)
      (free : s.processorS.locksComms = false) (sigps : Nat) :
      Shape { s with comms := comms', sender := sender, semLockSigps := sigps } := by
    refine ⟨datas, filled, fun idx scommid place => ?_, fun idx row place => ?_⟩
    · rw [show s.processorS = _ from place] at free
      cases free
    · rw [show s.processorS = _ from place] at free
      cases free
  cases moves with
  | signal => exact ⟨datas, comms, deleting, marking⟩
  | waitSigps => exact ⟨datas, comms, nofun, nofun⟩
  | readNothing => exact ⟨datas, comms, nofun, nofun⟩
  | readConnection place found holds =>
      refine ⟨datas, comms, fun idx scommid same => ?_, nofun⟩
      cases same
      exact ⟨found, _, holds, rfl⟩
  | readMessage place found holds =>
      exact ⟨datas, Block.filled_clear comms (Block.getSubblock_some found).2, nofun, nofun⟩
  | readOther place found =>
      exact ⟨datas, Block.filled_clear comms (Block.getSubblock_some found).2, nofun, nofun⟩
  | deleteComms place =>
      have taken := (Block.getSubblock_some (deleting _ _ place).1).2
      exact ⟨datas, Block.filled_clear comms taken, nofun, nofun⟩
  | sendNothing => exact ⟨datas, comms, nofun, nofun⟩
  | sendCommand place found =>
      refine ⟨datas, comms, nofun, fun idx row same => ?_⟩
      cases same
      exact found
  | updateComms place =>
      have free := (Block.getSubblock_some (marking _ _ place)).2
      exact ⟨datas, Block.filled_write comms free, nofun, nofun⟩
  | giveNothing => exact ⟨datas, comms, nofun, nofun⟩
  | giveJob place found =>
      exact ⟨Block.filled_write datas (Block.getSubblock_some found).2, comms, nofun, nofun⟩
  | waitSigs => exact ⟨datas, comms, deleting, marking⟩
  | getNothing => exact ⟨datas, comms, deleting, marking⟩
  | getCommand place free found =>
      exact outside (Block.filled_clear comms (Block.getSubblock_some found).2) free _
  | getOther place free found =>
      exact outside (Block.filled_clear comms (Block.getSubblock_some found).2) free _
  | connectNone => exact ⟨datas, comms, deleting, marking⟩
  | connect => exact ⟨datas, comms, deleting, marking⟩
  | connectFails => exact ⟨datas, comms, deleting, marking⟩
  | close => exact ⟨datas, comms, deleting, marking⟩
  | reportConnection place free found =>
      exact outside (Block.filled_write comms (Block.getSubblock_some found).2) free _
  | dropConnection => exact ⟨datas, comms, deleting, marking⟩
  | getNoData => exact ⟨datas, comms, deleting, marking⟩
  | getData place found =>
      exact ⟨Block.filled_clear datas (Block.getSubblock_some found).2, comms, deleting, marking⟩
  | getEmpty place found =>
      exact ⟨Block.filled_clear datas (Block.getSubblock_some found).2, comms, deleting, marking⟩
  | sendMore => exact ⟨datas, comms, deleting, marking⟩
  | sendDone => exact ⟨datas, comms, deleting, marking⟩
  | reportMessage place free found =>
      exact outside (Block.filled_write comms (Block.getSubblock_some found).2) free _
  | dropMessage => exact ⟨datas, comms, deleting, marking⟩
  | database => exact ⟨datas, comms, deleting, marking⟩

theorem jobs_clear_other {block : Block SenderComm} {idx : Nat} {record : SenderComm}
    (found : block.getSubblock true 2 = some idx) (holds : block.partitions idx = some record)
    (none : jobOf record = none) :
    (((block.toggleBit idx).held 2).filterMap jobOf).Perm ((block.held 2).filterMap jobOf) := by
  have moved := (Block.held_clear found holds).filterMap jobOf
  rw [List.filterMap_cons, none] at moved
  exact moved.symm

theorem lower_outside {block : Block SenderComm} {state : Bool} {idx : Nat}
    (found : block.getSubblock state 1 = some idx) : idx ∉ Block.region 2 := by
  intro upper
  have low := Block.mem_lower.mp (Block.getSubblock_some found).1
  have high := (Block.mem_upper.mp upper).1
  omega

theorem places_of {datas : Block SendMessage} {comms : Block SenderComm} {sender : Sender}
    (jobs : ((datas.held 3).map SendMessage.uuid).Perm ((s.datas.held 3).map SendMessage.uuid))
    (same : sender.holding = s.sender.holding)
    (statuses : ((comms.held 2).filterMap jobOf).Perm ((s.comms.held 2).filterMap jobOf)) :
    ((datas.held 3).map SendMessage.uuid ++ (sender.holding ++ (comms.held 2).filterMap jobOf)).Perm
      s.places := by
  rw [same]
  exact jobs.append (statuses.append_left _)

theorem perm_third {α : Type} (a : α) (first second third : List α) :
    (a :: (first ++ (second ++ third))).Perm (first ++ (second ++ a :: third)) :=
  List.perm_middle.symm.trans (List.perm_middle.symm.append_left first)

theorem settled_nothing (none : s.comms.getSubblock true 2 = none) : settled s .readMsg = [] := by
  simp [settled, none]

theorem settled_record {idx : Nat} {record : SenderComm}
    (found : s.comms.getSubblock true 2 = some idx) (holds : s.comms.partitions idx = some record) :
    settled s .readMsg = (jobOf record).toList := by
  simp [settled, found, holds]

theorem handed_nothing {choice : Nat}
    (nothing : s.datas.getSubblock false 3 = none ∨ firstInfo s.db choice = some none) :
    handed s (.giveData choice) = [] := by
  rcases nothing with full | empty
  · simp [handed, full]
  · simp [handed, empty]

theorem handed_job {choice idx : Nat} {sc : SendingConn} {js : Job}
    (found : s.datas.getSubblock false 3 = some idx)
    (first : firstInfo s.db choice = some (some (sc, js))) :
    handed s (.giveData choice) = [js.jobid] := by
  simp [handed, found, first]

theorem jobOf_other {record : SenderComm} {idx : Nat}
    (holds : s.comms.partitions idx = some record)
    (noMessage : ∀ msgsts, s.comms.partitions idx ≠ some (.message msgsts)) :
    jobOf record = none := by
  cases record with
  | message msgsts => exact absurd holds (noMessage msgsts)
  | _ => rfl

theorem step_conserves (shape : Shape s) (moves : Moves s a t) :
    (dropped s a ++ settled s a ++ t.places).Perm (handed s a ++ s.places) := by
  cases moves with
  | signal => exact .refl _
  | waitSigps => exact .refl _
  | readNothing place none =>
      rw [settled_nothing none]
      exact .refl _
  | readConnection place found holds =>
      rw [settled_record found holds]
      exact .refl _
  | readMessage place found holds =>
      rename_i idx msgsts
      have moved := (Block.held_clear found holds).filterMap jobOf
      rw [settled_record found holds]
      refine List.Perm.trans ?_ ((moved.append_left s.sender.holding).append_left
        ((s.datas.held 3).map SendMessage.uuid)).symm
      exact perm_third msgsts.uuid ((s.datas.held 3).map SendMessage.uuid) s.sender.holding
        (((s.comms.toggleBit idx).held 2).filterMap jobOf)
  | readOther place found noConnection noMessage =>
      obtain ⟨record, holds⟩ := shape.comms _ (Block.getSubblock_some found).2
      have none := jobOf_other holds noMessage
      rw [settled_record found holds, none]
      exact places_of (.refl _) rfl (jobs_clear_other found holds none)
  | deleteComms place =>
      obtain ⟨found, cncsts, holds, -⟩ := shape.deleting _ _ place
      exact places_of (.refl _) rfl (jobs_clear_other found holds rfl)
  | sendNothing => exact .refl _
  | sendCommand place found => exact .refl _
  | updateComms place =>
      have found := shape.marking _ _ place
      refine places_of (.refl _) rfl (.of_eq ?_)
      rw [Block.held_write_outside (Block.getSubblock_some found).2 (lower_outside found)]
  | giveNothing place nothing =>
      rw [handed_nothing nothing]
      exact .refl _
  | giveJob place found first =>
      rename_i choice idx sc js
      have moved := (Block.held_write (a := sendMessageOf sc js) found).map SendMessage.uuid
      rw [handed_job found first]
      exact moved.append_right _
  | waitSigs place => exact places_of (.refl _) (by rw [place]; rfl) (.refl _)
  | getNothing place => exact places_of (.refl _) (by rw [place]; rfl) (.refl _)
  | getCommand place free found =>
      refine places_of (.refl _) (by rw [place]; rfl) (.of_eq ?_)
      rw [Block.held_clear_outside (Block.getSubblock_some found).2 (lower_outside found)]
  | getOther place free found =>
      refine places_of (.refl _) (by rw [place]; rfl) (.of_eq ?_)
      rw [Block.held_clear_outside (Block.getSubblock_some found).2 (lower_outside found)]
  | connectNone place => exact places_of (.refl _) (by rw [place]; rfl) (.refl _)
  | connect place => exact places_of (.refl _) (by rw [place]; rfl) (.refl _)
  | connectFails place => exact places_of (.refl _) (by rw [place]; rfl) (.refl _)
  | close place => exact places_of (.refl _) (by rw [place]; rfl) (.refl _)
  | reportConnection place free found =>
      refine places_of (.refl _) (by rw [place]; rfl) ?_
      exact (Block.held_write found).filterMap jobOf
  | dropConnection place => exact places_of (.refl _) (by rw [place]; rfl) (.refl _)
  | getNoData place => exact places_of (.refl _) (by rw [place]; rfl) (.refl _)
  | getData place found holds =>
      have moved := (Block.held_clear found holds).map SendMessage.uuid
      simp only [State.places, place]
      refine List.Perm.trans ?_ (moved.symm.append_right _)
      exact List.perm_middle
  | getEmpty place found holds =>
      obtain ⟨sndmsg, same⟩ := shape.datas _ (Block.getSubblock_some found).2
      cases holds.symm.trans same
  | sendMore place => exact places_of (.refl _) (by rw [place]; rfl) (.refl _)
  | sendDone place => exact places_of (.refl _) (by rw [place]; rfl) (.refl _)
  | reportMessage place free found =>
      rename_i idx msgsts
      have nothing : dropped s .reportMessage = [] := by simp [dropped, place, found]
      have moved := (Block.held_write (a := SenderComm.message msgsts) found).filterMap jobOf
      rw [nothing]
      simp only [State.places, place]
      exact moved.append_left _
  | dropMessage place full =>
      rename_i msgsts
      have one : dropped s .reportMessage = [msgsts.uuid] := by simp [dropped, place, full]
      rw [one]
      simp only [State.places, place]
      change (msgsts.uuid :: ((s.datas.held 3).map SendMessage.uuid ++ _)).Perm
        ((s.datas.held 3).map SendMessage.uuid ++ msgsts.uuid :: _)
      exact List.perm_middle.symm
  | database => exact .refl _

structure Inv (s : State) : Prop where
  shape : Shape s
  keys : s.db.Keys
  waits : ∀ id ∈ s.places, id ∈ waitingIds s.db
  nodup : s.places.Nodup

theorem waiting_conserves (inv : Inv s) (moves : Moves s a t) :
    (settled s a ++ waitingIds t.db).Perm (handed s a ++ waitingIds s.db) := by
  cases moves with
  | readNothing place none =>
      rw [settled_nothing none]
      exact .refl _
  | readConnection place found holds =>
      rw [settled_record found holds]
      exact .refl _
  | readMessage place found holds =>
      rename_i idx msgsts
      rw [settled_record found holds]
      have member : msgsts.uuid ∈ s.places := by
        have inside := (Block.held_clear found holds).mem_iff.mpr List.mem_cons_self
        simp only [State.places, List.mem_append, List.mem_filterMap]
        exact .inr (.inr ⟨_, inside, rfl⟩)
      exact (waiting_leave inv.keys (inv.waits _ member) _).symm
  | readOther place found noConnection noMessage =>
      obtain ⟨record, holds⟩ := inv.shape.comms _ (Block.getSubblock_some found).2
      rw [settled_record found holds, jobOf_other holds noMessage]
      exact .refl _
  | giveNothing place nothing =>
      rw [handed_nothing nothing]
      exact .refl _
  | giveJob place found first =>
      rw [handed_job found first]
      obtain ⟨-, member, state, -⟩ := Db.mem_sGetInfo.mp (firstInfo_mem first)
      exact waiting_enter inv.keys member state
  | database other done =>
      rw [waitingIds, waitingIds, waiting_others inv.keys other done]
      exact .refl _
  | _ => exact .refl _

theorem keys_moves (keys : s.db.Keys) (moves : Moves s a t) : t.db.Keys := by
  cases moves with
  | readMessage => exact Db.keys_update keys fun _ => ⟨rfl, rfl⟩
  | giveJob => exact Db.keys_update keys fun _ => ⟨rfl, rfl⟩
  | database other done => exact Db.keys_perform keys done
  | _ => exact keys_same (rfl : _ = s.db.jobScheduler) keys

theorem handed_fresh (inv : Inv s) (moves : Moves s a t) : (handed s a ++ s.places).Nodup := by
  rw [List.nodup_append]
  cases moves with
  | giveJob place found first =>
      rw [handed_job found first]
      refine ⟨List.nodup_singleton _, inv.nodup, ?_⟩
      rintro id single other inside rfl
      obtain ⟨-, member, state, -⟩ := Db.mem_sGetInfo.mp (firstInfo_mem first)
      obtain ⟨js, present, waits, same⟩ := mem_waitingIds.mp (inv.waits _ inside)
      rw [List.mem_singleton.mp single] at same
      obtain rfl := List.inj_on_of_nodup_map inv.keys.jobids present member same
      cases waits.symm.trans state
  | giveNothing place nothing =>
      rw [handed_nothing nothing]
      exact ⟨List.nodup_nil, inv.nodup, by simp⟩
  | _ => exact ⟨List.nodup_nil, inv.nodup, by simp [handed]⟩

theorem inv_step (inv : Inv s) (moves : Moves s a t) : Inv t := by
  have jobs := step_conserves inv.shape moves
  have fresh := jobs.nodup_iff.mpr (handed_fresh inv moves)
  obtain ⟨-, nodup, apart⟩ := List.nodup_append.mp fresh
  refine ⟨shape_step inv.shape moves, keys_moves inv.keys moves, fun id member => ?_, nodup⟩
  have before : id ∈ handed s a ++ waitingIds s.db := by
    rcases List.mem_append.mp (jobs.mem_iff.mp (List.mem_append_right _ member)) with new | old
    · exact List.mem_append_left _ new
    · exact List.mem_append_right _ (inv.waits id old)
  rcases List.mem_append.mp ((waiting_conserves inv moves).mem_iff.mpr before) with gone | waits
  · exact absurd rfl (apart id (List.mem_append_right _ gone) id member)
  · exact waits

theorem dropped_nil_iff (moves : Moves s a t) : dropped s a = [] ↔ HasRoom s a := by
  unfold HasRoom
  cases moves with
  | reportMessage place free found =>
      refine iff_of_true (by simp [dropped, place, found]) fun _ _ _ => ?_
      exact ⟨_, Block.getSubblock_some found⟩
  | dropMessage place full =>
      refine iff_of_false (by simp [dropped, place, full]) fun room => ?_
      obtain ⟨k, inside, free⟩ := room _ rfl place
      rw [Block.getSubblock_none.mp full k inside] at free
      cases free
  | _ => exact iff_of_true rfl nofun

end Step

theorem places_initial (db : Db) (sigs : Nat) : (initial db sigs).places = [] := by
  simp [State.places, initial, Sender.holding, Block.held_empty]

theorem inv_initial {db : Db} (keys : db.Keys) (sigs : Nat) : Inv (initial db sigs) := by
  refine ⟨shape_initial db sigs, keys, ?_, ?_⟩
  · simp [places_initial]
  · simp [places_initial]

def readyJob (n : Nat) : Job :=
  ⟨Uuid.ofNat (n + 1), [7], .S4, ascii "1", ascii "   M3", Uuid.ofNat 0, ascii "   M1", ascii "5"⟩

def readyDb (messages : Nat) : Db :=
  { Db.sampleDb with
    jobScheduler := Db.sampleDb.jobScheduler ++ (List.range messages).map readyJob
    sysinfo := [⟨ascii "   M1", 16843009, some 6101, 7000, some 32768⟩]
    sendingConns := [⟨-1, 16843009, 1⟩]
    sendersComms := [⟨1, 16843009, 6101, .openConn⟩]
    scommidSeq := 2 }

def openAndHand : List Action :=
  [.signal, .waitSigps, .readMsg, .sendMsg 0, .updateComms, .giveData 0, .waitSigs, .getMessage,
    .connect (some 5) true, .reportConnection, .getData, .waitSigps, .readMsg, .deleteComms,
    .sendMsg 0, .giveData 0]

def handOne : List Action := [.signal, .waitSigps, .readMsg, .sendMsg 0, .giveData 0]

def sendOne : List Action := [.waitSigs, .getMessage, .getData, .send 1, .reportMessage]

def slowSender (messages : Nat) : List Action :=
  openAndHand ++ (List.replicate (messages - 1) handOne).flatten ++
    (List.replicate messages sendOne).flatten

end SenderSide

end FileSharing
