import FileSharing.Database.Advance
import FileSharing.Database.Operations

/-! The triggers `msg_for_sender1` and `msg_for_sender2`: a statement that leaves a message in
S-4, or a command, where there was none, also notifies `processor_s`. -/

namespace FileSharing

open Library RunJobs

/-- A row of `senders_comms` that `s_get_comms` returns. -/
def IsCommand (sm : SendersComm) : Prop := sm.mtype = .openConn ∨ sm.mtype = .closeConn

def Queued (db : Db) (destination : Text) : Prop :=
  ∃ js ∈ db.jobScheduler, js.jstate = .S4 ∧ js.jdestination = destination

/-- Without a new notification there is neither a new message nor a new command. -/
structure Announced (db db' : Db) : Prop where
  notified : db.noti1sender ≤ db'.noti1sender
  messages : db'.noti1sender = db.noti1sender → ∀ destination, Queued db' destination →
    Queued db destination
  commands : db'.noti1sender = db.noti1sender → ∀ sm ∈ db'.sendersComms, IsCommand sm →
    sm ∈ db.sendersComms

section Announced

variable {a b c db db' : Db}

theorem Announced.trans (first : Announced a b) (second : Announced b c) : Announced a c := by
  have notified := first.notified.trans second.notified
  -- the count is the same at both ends, so it is the same in the middle
  have both (same : c.noti1sender = a.noti1sender) :
      c.noti1sender = b.noti1sender ∧ b.noti1sender = a.noti1sender := by
    have left := first.notified
    have right := second.notified
    omega
  constructor
  · exact notified
  · intro same destination queued
    exact first.messages (both same).2 destination (second.messages (both same).1 destination queued)
  · intro same sm member command
    exact first.commands (both same).2 sm (second.commands (both same).1 sm member command) command

theorem Announced.same (noti : db'.noti1sender = db.noti1sender)
    (jobs : db'.jobScheduler = db.jobScheduler) (comms : db'.sendersComms = db.sendersComms) :
    Announced db db' := by
  constructor
  · exact noti.ge
  · intro _ destination queued
    rwa [Queued, ← jobs]
  · intro _ sm member _
    rwa [← comms]

theorem Announced.refl (db : Db) : Announced db db := .same rfl rfl rfl

theorem announced_update (db : Db) (condition : Job → Bool) (change : Job → Job) :
    Announced db (db.updateJobs condition change) := by
  constructor
  · exact Nat.le_add_right _ _
  · rintro same destination ⟨js, member, state, toward⟩
    have none : (db.jobScheduler.filter fun job =>
        condition job && (change job).jstate = .S4) = [] := by
      apply List.eq_nil_of_length_eq_zero
      exact Nat.add_left_cancel same
    obtain ⟨old, inside, rfl⟩ := List.mem_map.mp member
    split at state
    · next chosen =>
        have unfit := List.filter_eq_nil_iff.mp none old inside
        simp [chosen, state] at unfit
    · next other =>
        rw [if_neg other] at toward
        exact ⟨old, inside, state, toward⟩
  · exact fun _ sm member _ => member

theorem announced_updateM {condition : Job → Sql Bool} {change : Job → Job}
    (done : db.updateJobsM condition change = .ok db') : Announced db db' := by
  unfold Db.updateJobsM at done
  obtain ⟨chosen, found, rest⟩ := bind_ok.mp done
  obtain rfl := pure_ok.mp rest
  have pairs := mapM_ok.mp found
  constructor
  · exact Nat.le_add_right _ _
  · rintro same destination ⟨js, member, state, toward⟩
    have none := List.eq_nil_of_length_eq_zero (Nat.add_left_cancel same)
    obtain ⟨⟨old, holds⟩, inside, rfl⟩ := List.mem_map.mp member
    obtain ⟨job, listed, tested⟩ := forall₂_mem_right pairs inside
    obtain ⟨test, -, pair⟩ := bind_ok.mp tested
    obtain ⟨rfl, rfl⟩ := Prod.mk.inj (pure_ok.mp pair)
    cases test with
    | true =>
        have unfit := List.filter_eq_nil_iff.mp none _ inside
        simp_all
    | false => exact ⟨_, listed, state, toward⟩
  · exact fun _ sm member _ => member

theorem announced_insertJob {job : Job} (done : db.insertJob job = .ok db') : Announced db db' := by
  unfold Db.insertJob at done
  split at done
  · cases done
  · split at done
    · cases done
    · obtain rfl := Except.ok.inj done
      constructor
      · exact Nat.le_add_right _ _
      · rintro same destination ⟨js, member, state, toward⟩
        rcases List.mem_append.mp member with old | new
        · exact ⟨js, old, state, toward⟩
        · obtain rfl := List.mem_singleton.mp new
          simp [state] at same
      · exact fun _ sm member _ => member

theorem announced_insertJobs {rows : List Job} (done : db.insertJobs rows = .ok db') :
    Announced db db' :=
  foldlM_keeps (Announced db) (fun _ _ _ _ kept moved => kept.trans (announced_insertJob moved))
    (.refl db) done

theorem announced_createComms (db : Db) (row : SysInfo) : Announced db (db.createComms row) := by
  unfold Db.createComms
  split
  · exact .refl db
  · split
    · exact .refl db
    · exact .same rfl rfl rfl

theorem announced_writeSysinfo (db : Db) (condition : SysInfo → Bool) (change : SysInfo → SysInfo) :
    Announced db (writeSysinfo db condition change) := by
  unfold writeSysinfo
  generalize (db.sysinfo.filter condition).map change = written
  have start : Announced db { db with
      sysinfo := db.sysinfo.map fun si => if condition si then change si else si } :=
    .same rfl rfl rfl
  refine List.foldlRecOn written Db.createComms start fun u kept row _ => ?_
  exact kept.trans (announced_createComms u row)

theorem announced_upsertSysinfo {info : List (Request × Option Int)} {row : Request × Option Int}
    (done : upsertSysinfo info db row = .ok db') : Announced db db' := by
  rcases upsertSysinfo_ok done with ⟨found, -, -, rfl⟩ | ⟨new, -, -, rfl⟩
  · exact announced_writeSysinfo db _ _
  · have added : Announced db { db with sysinfo := db.sysinfo ++ [new] } := .same rfl rfl rfl
    exact added.trans (announced_createComms _ new)

theorem announced_learnRequests (done : learnRequests db = .ok db') : Announced db db' := by
  unfold learnRequests at done
  obtain ⟨requests, -, rest⟩ := bind_ok.mp done
  obtain ⟨info, -, writes⟩ := bind_ok.mp rest
  exact foldlM_keeps (Announced db) (fun _ _ _ _ kept moved =>
    kept.trans (announced_upsertSysinfo moved)) (.refl db) writes

theorem announced_applyReplies (done : applyReplies db = .ok db') : Announced db db' := by
  rcases applyReplies_ok done with rfl | ⟨reply, -, -, rfl⟩
  · exact .refl _
  · exact announced_writeSysinfo db _ _

theorem announced_registerConns (db : Db) : Announced db (registerConns db) := by
  unfold registerConns
  refine List.foldlRecOn _ registerConn (Announced.refl db) fun u kept address _ => kept.trans ?_
  unfold registerConn
  split
  · exact .refl u
  · exact .same rfl rfl rfl

theorem announced_insertComm {mtype : MType} {row : Int × Option Int}
    (done : insertComm mtype db row = .ok db') : Announced db db' := by
  unfold insertComm at done
  split at done
  · cases done
  · split at done
    · exact Except.ok.inj done ▸ .same rfl rfl rfl
    · obtain rfl := Except.ok.inj done
      constructor
      · exact Nat.le_succ _
      · intro same
        exact absurd same (Nat.succ_ne_self _)
      · intro same
        exact absurd same (Nat.succ_ne_self _)

theorem announced_insertComms {mtype : MType} {rows : List (Int × Option Int)}
    (done : rows.foldlM (insertComm mtype) db = .ok db') : Announced db db' :=
  foldlM_keeps (Announced db) (fun _ _ _ _ kept moved => kept.trans (announced_insertComm moved))
    (.refl db) done

theorem statements_announce {env : Env} {statement : Env → Db → Sql Db}
    (member : statement ∈ statements) (done : statement env db = .ok db') : Announced db db' := by
  simp only [statements, List.mem_cons, List.not_mem_nil, or_false] at member
  rcases member with rfl | rfl | rfl | rfl | rfl | rfl | rfl | rfl | rfl | rfl | rfl | rfl | rfl |
    rfl | rfl | rfl | rfl | rfl | rfl | rfl | rfl | rfl | rfl | rfl
  · exact pure_ok.mp done ▸ announced_update db _ _
  · exact pure_ok.mp done ▸ announced_update db _ _
  · exact pure_ok.mp done ▸ announced_update db _ _
  · exact pure_ok.mp done ▸ announced_update db _ _
  · exact pure_ok.mp done ▸ announced_update db _ _
  · rcases completeSplit_ok done with ⟨-, rfl⟩ | ⟨parents, -, rfl⟩
    · exact .refl db'
    · exact announced_update db _ _
  · exact pure_ok.mp done ▸ announced_update db _ _
  · obtain ⟨rows, -, inserted⟩ := bind_ok.mp done
    exact announced_insertJobs inserted
  · exact pure_ok.mp done ▸ announced_update db _ _
  · exact announced_learnRequests done
  · obtain ⟨received, -, rest⟩ := bind_ok.mp done
    obtain ⟨rows, -, inserted⟩ := bind_ok.mp rest
    exact announced_insertJobs inserted
  · exact pure_ok.mp done ▸ announced_update db _ _
  · exact announced_applyReplies done
  · exact pure_ok.mp done ▸ announced_update db _ _
  · exact announced_updateM done
  · exact announced_updateM done
  · obtain ⟨rows, -, rest⟩ := bind_ok.mp done
    obtain ⟨jobs, -, inserted⟩ := bind_ok.mp rest
    exact announced_insertJobs inserted
  · obtain ⟨rows, -, rest⟩ := bind_ok.mp done
    obtain ⟨chunks, -, rest⟩ := bind_ok.mp rest
    obtain ⟨jobs, -, inserted⟩ := bind_ok.mp rest
    exact announced_insertJobs inserted
  · obtain ⟨rows, -, rest⟩ := bind_ok.mp done
    obtain ⟨jobs, -, inserted⟩ := bind_ok.mp rest
    exact announced_insertJobs inserted
  · exact pure_ok.mp done ▸ announced_update db _ _
  · exact pure_ok.mp done ▸ announced_update db _ _
  · exact pure_ok.mp done ▸ announced_registerConns db
  · exact announced_insertComms done
  · exact announced_insertComms done

theorem announced_runJobs {env : Env} (done : runJobs env db = .ok db') : Announced db db' := by
  rw [← statements_run] at done
  exact foldlM_keeps (Announced db) (fun _ statement _ member kept moved =>
    kept.trans (statements_announce member moved)) (.refl db) done

theorem announced_attempt {done : Sql Db} (each : ∀ u, done = .ok u → Announced db u) :
    Announced db (db.attempt done) := by
  rcases Db.attempt_cases db done with same | ⟨u, ok, same⟩
  · rw [same]
    exact .refl db
  · rw [same]
    exact each u ok

theorem announced_perform {op : Operation} (step : db.perform op = some db')
    (other : ∀ scommid, op ≠ .updateComms scommid) : Announced db db' := by
  cases op with
  | runJobs env => exact Option.some.inj step ▸ announced_attempt fun _ => announced_runJobs
  | importFile file =>
      refine Option.some.inj step ▸ announced_attempt fun u done => ?_
      exact importFile_ok done ▸ .same rfl rfl rfl
  | sendFile id fileName destination =>
      refine Option.some.inj step ▸ announced_attempt fun u done => ?_
      unfold Db.sendFile at done
      split at done
      · obtain ⟨jobdata, -, rest⟩ := bind_ok.mp done
        obtain ⟨top, -, -, inserted⟩ := insertUnderRoot_ok rest
        exact announced_insertJob inserted
      · exact pure_ok.mp done ▸ .refl db
  | updateJobPriority id priority => exact Option.some.inj step ▸ announced_update db _ _
  | storeData id fd data =>
      refine Option.some.inj step ▸ announced_attempt fun u done => ?_
      obtain ⟨top, -, -, inserted⟩ := insertUnderRoot_ok done
      exact announced_insertJob inserted
  | retrieve sc job =>
      simp only [Db.perform] at step
      split at step
      · exact Option.some.inj step ▸ announced_update db _ _
      · cases step
  | updateStatus id status => exact Option.some.inj step ▸ announced_update db _ _
  | updateConns ipaddress fd status => exact Option.some.inj step ▸ .same rfl rfl rfl
  | updateComms scommid => exact absurd rfl (other scommid)
  | deleteComms scommid =>
      obtain rfl := Option.some.inj step
      constructor
      · exact Nat.le_refl _
      · exact fun _ _ queued => queued
      · exact fun _ sm member _ => (List.mem_filter.mp member).1
  | getcomms rcomid =>
      obtain ⟨row, -, -, rfl⟩ := Db.perform_getcomms step
      exact .same rfl rfl rfl
  | insertConns fd ipaddr status =>
      obtain ⟨rows, same⟩ := Db.rInsertConns_frame db fd ipaddr status
      exact Option.some.inj step ▸ same ▸ .same rfl rfl rfl

end Announced

end FileSharing
