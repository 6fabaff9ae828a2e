import FileSharing.Database.Announced
import FileSharing.Sender.Connections
import FileSharing.Sender.Priorities

/-! What keeps the sending side going: a notification is spent on one turn of `processor_s`, a
turn hands over at most one command and one message, and each of these comes back as a status
that is good for one more turn. -/

namespace FileSharing

open Library RunJobs

namespace SenderSide

/-- A turn of the inner loop of `notif`. -/
def notify (s : State) : Option State :=
  match s.db.noti1sender with
  | noti + 1 => some { s with
      semLockSigps := s.semLockSigps + 1, db := { s.db with noti1sender := noti } }
  | 0 => none

/-- `step`, but `sigps` is posted only for a notification. -/
def notifiedStep (s : State) : Action → Option State
  | .signal => notify s
  | a => step s a

def Answered (s : State) : Action → Prop
  | .giveData _ => s.datas.getSubblock false 3 ≠ none → Deliverable s.db
  | _ => True

/-- `processor_s` and `sender` sleep, and no notification is on its way. -/
structure Blocked (s : State) : Prop where
  processorS : s.processorS = .waiting
  semLockSigps : s.semLockSigps = 0
  sender : s.sender = .waiting
  semLockSigs : s.semLockSigs = 0
  delivered : s.db.noti1sender = 0

/-- What `processor_s` looks for is left. -/
def Stranded (db : Db) : Prop :=
  (∃ sc ∈ db.sendingConns, sc.scstatus = 2 ∧ ∃ si ∈ db.sysinfo, si.ipaddress = sc.sipaddr ∧
    ∃ js ∈ db.jobScheduler, js.jdestination = si.systemName ∧ js.jstate = .S4) ∨
  ∃ sm ∈ db.sendersComms, sm.mtype = .openConn ∨ sm.mtype = .closeConn

def ProcessorS.reads : ProcessorS → Nat
  | .reading => 1
  | .deleting _ _ => 1
  | _ => 0

def ProcessorS.asks : ProcessorS → Nat
  | .waiting => 0
  | .giving => 0
  | _ => 1

def ProcessorS.gives : ProcessorS → Nat
  | .waiting => 0
  | _ => 1

def Sender.receives : Sender → Nat
  | .receiving => 1
  | _ => 0

def Sender.executes : Sender → Nat
  | .executing _ => 1
  | .reporting _ => 1
  | _ => 0

def Sender.fetches : Sender → Nat
  | .receiving => 1
  | .executing _ => 1
  | .reporting _ => 1
  | .fetching => 1
  | _ => 0

def Sender.sends : Sender → Nat
  | .sending _ _ => 1
  | .settling _ => 1
  | _ => 0

def IsOrder : SenderComm → Prop
  | .openConn _ => True
  | .closeConn _ => True
  | _ => False

/-- The records in the blocks are at most the wake-ups that their reader has left. -/
structure Attended (s : State) : Prop where
  shape : Shape s
  orders : ∀ record ∈ s.comms.held 1, IsOrder record
  commands : (s.comms.held 1).length ≤ s.semLockSigs + s.sender.receives
  messages : (s.datas.held 3).length ≤ s.semLockSigs + s.sender.fetches
  statuses : (s.comms.held 2).length ≤ s.semLockSigps + s.processorS.reads

def State.turns (s : State) : Nat := s.semLockSigps + s.db.noti1sender

/-- As long as there is a command, some turn comes before which a command is under way, and so
for the messages. -/
structure Driven (s : State) : Prop where
  commands : commands s.db ≠ [] →
    0 < s.turns + s.processorS.asks + (s.comms.held 1).length + s.sender.executes
  messages : s.db.sGetInfo ≠ [] →
    0 < s.turns + s.processorS.gives + (s.datas.held 3).length + s.sender.sends
  registered : ∀ sc ∈ s.db.sendingConns, ∃ si ∈ s.db.sysinfo, si.ipaddress = sc.sipaddr
  addresses : (s.db.sysinfo.map SysInfo.ipaddress).Nodup

section Attended

variable {s t : State} {a : Action}

theorem isOrder_commandOf (row : SendersComm) : IsOrder (commandOf row) := by
  unfold commandOf
  split
  · trivial
  · trivial

theorem attended_step (attended : Attended s) (moves : Moves s a t) : Attended t := by
  have shape := shape_step attended.shape moves
  obtain ⟨⟨datas, comms, deleting, marking⟩, orders, commands, messages, statuses⟩ := attended
  -- `processor_s` frees the partition of a status
  have freed {idx : Nat} {processorS : ProcessorS} {db : Db}
      (found : s.comms.getSubblock true 2 = some idx) (place : s.processorS.reads = 1)
      (after : Shape { s with comms := s.comms.toggleBit idx, processorS := processorS, db := db }) :
      Attended { s with comms := s.comms.toggleBit idx, processorS := processorS, db := db } := by
    obtain ⟨member, taken⟩ := Block.getSubblock_some found
    have lower := Block.held_clear_outside taken (Block.upper_not_lower member)
    have count := Block.held_length_clear comms found
    constructor
    · exact after
    · rwa [lower]
    · rwa [lower]
    · exact messages
    · rw [place] at statuses
      dsimp only
      omega
  -- `sender` writes a status
  have reported {idx : Nat} {record : SenderComm} {sender : Sender}
      (found : s.comms.getSubblock false 2 = some idx) (receives : s.sender.receives = 0)
      (fetches : s.sender.fetches ≤ sender.fetches)
      (after : Shape { s with
        comms := s.comms.write idx record, semLockSigps := s.semLockSigps + 1, sender := sender }) :
      Attended { s with
        comms := s.comms.write idx record, semLockSigps := s.semLockSigps + 1, sender := sender } := by
    obtain ⟨member, free⟩ := Block.getSubblock_some found
    have lower := Block.held_write_outside (a := record) free (Block.upper_not_lower member)
    have count := Block.held_length_write record found
    constructor
    · exact after
    · rwa [lower]
    · dsimp only
      rw [lower]
      omega
    · dsimp only
      omega
    · dsimp only
      omega
  -- `sender` takes a command
  have taken {idx : Nat} {sender : Sender} (found : s.comms.getSubblock true 1 = some idx)
      (receives : s.sender.receives = 1) (fetches : s.sender.fetches ≤ sender.fetches)
      (after : Shape { s with comms := s.comms.toggleBit idx, sender := sender }) :
      Attended { s with comms := s.comms.toggleBit idx, sender := sender } := by
    obtain ⟨member, marked⟩ := Block.getSubblock_some found
    obtain ⟨record, holds⟩ := comms idx marked
    have upper := Block.held_clear_outside marked (Block.lower_not_upper member)
    have moved := Block.held_clear found holds
    have count := moved.length_eq
    rw [List.length_cons] at count
    constructor
    · exact after
    · exact fun other inside => orders other (moved.mem_iff.mpr (List.mem_cons_of_mem _ inside))
    · dsimp only
      omega
    · dsimp only
      omega
    · dsimp only
      rwa [upper]
  cases moves with
  | signal => exact ⟨shape, orders, commands, messages, Nat.le_trans statuses (by dsimp only; omega)⟩
  | waitSigps place count =>
      rw [place, count] at statuses
      exact ⟨shape, orders, commands, messages, statuses⟩
  | readNothing place none =>
      refine ⟨shape, orders, commands, messages, ?_⟩
      simp [Block.held_of_none none]
  | readConnection place found holds =>
      rw [place] at statuses
      exact ⟨shape, orders, commands, messages, statuses⟩
  | readMessage place found holds => exact freed found (by rw [place]; rfl) shape
  | readOther place found => exact freed found (by rw [place]; rfl) shape
  | deleteComms place => exact freed (deleting _ _ place).1 (by rw [place]; rfl) shape
  | sendNothing place =>
      rw [place] at statuses
      exact ⟨shape, orders, commands, messages, statuses⟩
  | sendCommand place =>
      rw [place] at statuses
      exact ⟨shape, orders, commands, messages, statuses⟩
  | updateComms place =>
      rename_i idx row
      have found := marking _ _ place
      obtain ⟨member, free⟩ := Block.getSubblock_some found
      have upper := Block.held_write_outside (a := commandOf row) free (Block.lower_not_upper member)
      have moved := Block.held_write (a := commandOf row) found
      have count := moved.length_eq
      rw [List.length_cons] at count
      rw [place] at statuses
      constructor
      · exact shape
      · intro record inside
        rcases List.mem_cons.mp (moved.mem_iff.mp inside) with rfl | old
        · exact isOrder_commandOf row
        · exact orders record old
      · dsimp only
        omega
      · dsimp only
        omega
      · dsimp only
        rwa [upper]
  | giveNothing place =>
      rw [place] at statuses
      exact ⟨shape, orders, commands, messages, statuses⟩
  | giveJob place found first =>
      rename_i choice idx sc js
      have count := Block.held_length_write (sendMessageOf sc js) found
      rw [place] at statuses
      refine ⟨shape, orders, ?_, ?_, statuses⟩
      · dsimp only
        omega
      · dsimp only
        omega
  | waitSigs place count =>
      rw [place, count] at commands messages
      exact ⟨shape, orders, commands, messages, statuses⟩
  | getNothing place none =>
      rw [place] at messages
      refine ⟨shape, orders, ?_, messages, statuses⟩
      simp [Block.held_of_none none]
  | getCommand place free found holds =>
      exact taken found (by rw [place]; rfl) (by rw [place]; exact Nat.le_refl 1) shape
  | getOther place free found =>
      exact taken found (by rw [place]; rfl) (by rw [place]; exact Nat.le_refl 1) shape
  | connectNone place =>
      rw [place] at commands messages
      exact ⟨shape, orders, commands, messages, statuses⟩
  | connect place =>
      rw [place] at commands messages
      exact ⟨shape, orders, commands, messages, statuses⟩
  | connectFails place =>
      rw [place] at commands messages
      exact ⟨shape, orders, commands, messages, statuses⟩
  | close place =>
      rw [place] at commands messages
      exact ⟨shape, orders, commands, messages, statuses⟩
  | reportConnection place free found =>
      exact reported found (by rw [place]; rfl) (by rw [place]; exact Nat.le_refl 1) shape
  | dropConnection place =>
      rw [place] at commands messages
      exact ⟨shape, orders, commands, messages, statuses⟩
  | getNoData place none =>
      rw [place] at commands
      refine ⟨shape, orders, commands, ?_, statuses⟩
      simp [Block.held_of_none none]
  | getData place found holds =>
      have count := Block.held_length_clear datas found
      rw [place] at commands messages
      refine ⟨shape, orders, commands, ?_, statuses⟩
      simp only [Sender.fetches] at messages ⊢
      omega
  | getEmpty place found =>
      have count := Block.held_length_clear datas found
      rw [place] at commands messages
      refine ⟨shape, orders, commands, ?_, statuses⟩
      simp only [Sender.fetches] at messages ⊢
      omega
  | sendMore place =>
      rw [place] at commands messages
      exact ⟨shape, orders, commands, messages, statuses⟩
  | sendDone place =>
      rw [place] at commands messages
      exact ⟨shape, orders, commands, messages, statuses⟩
  | reportMessage place free found =>
      exact reported found (by rw [place]; rfl) (by rw [place]; exact Nat.le_refl 0) shape
  | dropMessage place =>
      rw [place] at commands messages
      exact ⟨shape, orders, commands, messages, statuses⟩
  | database => exact ⟨shape, orders, commands, messages, statuses⟩

end Attended

section Database

variable {db db' : Db}

theorem registered_registerConns (db : Db) : ∀ sc ∈ (registerConns db).sendingConns,
    sc ∈ db.sendingConns ∨ ∃ si ∈ db.sysinfo, si.ipaddress = sc.sipaddr := by
  have start : ∀ sc ∈ db.sendingConns,
      sc ∈ db.sendingConns ∨ ∃ si ∈ db.sysinfo, si.ipaddress = sc.sipaddr :=
    fun sc member => .inl member
  unfold registerConns
  refine List.foldlRecOn (motive := fun u => ∀ sc ∈ u.sendingConns,
    sc ∈ db.sendingConns ∨ ∃ si ∈ db.sysinfo, si.ipaddress = sc.sipaddr) _ registerConn start ?_
  intro u kept address listed sc member
  unfold registerConn at member
  split at member
  · exact kept sc member
  · rcases List.mem_append.mp member with old | new
    · exact kept sc old
    · rw [List.mem_singleton.mp new]
      obtain ⟨si, inside, same⟩ := List.mem_map.mp (List.mem_dedup.mp listed)
      exact .inr ⟨si, (List.mem_filter.mp inside).1, same⟩

structure ConnsKept (db db' : Db) : Prop where
  known : Known db db'
  opened : ∀ sc ∈ db'.sendingConns, sc.scstatus = 2 → sc ∈ db.sendingConns
  registered : ∀ sc ∈ db'.sendingConns,
    sc ∈ db.sendingConns ∨ ∃ si ∈ db'.sysinfo, si.ipaddress = sc.sipaddr

theorem ConnsKept.same (conns : db'.sendingConns = db.sendingConns)
    (systems : db'.sysinfo = db.sysinfo) : ConnsKept db db' := by
  constructor
  · exact .of_eq systems
  · exact fun sc member _ => conns ▸ member
  · exact fun sc member => .inl (conns ▸ member)

theorem connsKept_runJobs {env : Env} (done : runJobs env db = .ok db') : ConnsKept db db' := by
  obtain ⟨u, before, managed⟩ := runJobs_managed.mp done
  obtain ⟨conns, known⟩ := beforeConns_ok before
  obtain ⟨v, opens, closes⟩ := bind_ok.mp managed
  obtain ⟨first, same⟩ := onlyConns_insertComms opens
  obtain ⟨second, same'⟩ := onlyConns_insertComms closes
  have rows : db'.sendingConns = (registerConns u).sendingConns := same'.trans same
  have systems : db'.sysinfo = u.sysinfo :=
    second.sysinfo.trans (first.sysinfo.trans (onlyConns_registerConns u).sysinfo)
  constructor
  · exact known.trans (.of_eq systems)
  · intro sc member opened
    rw [← conns.sendingConns]
    exact (registerConns_ok u).2.2 sc (rows ▸ member) opened
  · intro sc member
    rw [← conns.sendingConns, systems]
    exact registered_registerConns u sc (rows ▸ member)

theorem connsKept_others {op : Operation} (other : others db op = true)
    (done : db.perform op = some db') : ConnsKept db db' := by
  by_cases pass : ∃ env, op = .runJobs env
  · obtain ⟨env, rfl⟩ := pass
    obtain rfl := Option.some.inj done
    rcases Db.attempt_cases db (runJobs env db) with still | ⟨u, ok, after⟩
    · rw [still]
      exact .same rfl rfl
    · rw [after]
      exact connsKept_runJobs ok
  · obtain ⟨conns, systems⟩ := others_conns other (fun env equal => pass ⟨env, equal⟩) done
    exact .same conns.sendingConns systems

theorem commands_nonempty : commands db ≠ [] ↔ ∃ sm ∈ db.sendersComms, IsCommand sm := by
  simp [commands, IsCommand, List.filter_eq_nil_iff, imp_iff_not_or]

theorem sGetInfo_before (announced : Announced db db') (kept : ConnsKept db db')
    (registered : ∀ sc ∈ db.sendingConns, ∃ si ∈ db.sysinfo, si.ipaddress = sc.sipaddr)
    (addresses : (db.sysinfo.map SysInfo.ipaddress).Nodup)
    (same : db'.noti1sender = db.noti1sender) (found : db'.sGetInfo ≠ []) : db.sGetInfo ≠ [] := by
  obtain ⟨⟨sc, js⟩, member⟩ := List.exists_mem_of_ne_nil _ found
  obtain ⟨inside, listed, state, opened, si, present, toward, address⟩ := Db.mem_sGetInfo.mp member
  have old := kept.opened sc inside opened
  -- the address belongs to one system, before and after
  obtain ⟨si₀, known, address₀⟩ := registered sc old
  obtain ⟨si₁, present₁, name₁, address₁⟩ := kept.known.kept si₀ known
  have one : si₁ = si := by
    apply List.inj_on_of_nodup_map (kept.known.addresses addresses) present₁ present
    rw [address₁, address₀, address]
  obtain ⟨js₀, listed₀, state₀, toward₀⟩ :=
    announced.messages same _ ⟨js, listed, state, toward⟩
  have reaches : (sc, js₀) ∈ db.sGetInfo := by
    apply Db.mem_sGetInfo.mpr
    exact ⟨old, listed₀, state₀, opened, si₀, known, by rw [toward₀, ← one, name₁], address₀.symm⟩
  exact List.ne_nil_of_mem reaches

theorem others_announce {op : Operation} (other : others db op = true)
    (done : db.perform op = some db') : Announced db db' := by
  apply announced_perform done
  rintro scommid rfl
  cases other

end Database

section Driven

variable {s t : State} {a : Action}

theorem reads_le_asks (place : ProcessorS) : place.reads ≤ place.asks := by
  cases place <;> simp [ProcessorS.reads, ProcessorS.asks]

theorem reads_le_gives (place : ProcessorS) : place.reads ≤ place.gives := by
  cases place <;> simp [ProcessorS.reads, ProcessorS.gives]

theorem sendMsg_nothing {choice : Nat} (place : s.processorS = .commanding)
    (moved : step s (.sendMsg choice) = some t) (next : t.processorS = .giving) :
    s.comms.getSubblock false 1 = none ∨ commands s.db = [] := by
  simp only [step, place, sendMsg] at moved
  split at moved
  · next full => exact .inl full
  · split at moved
    · next none => exact .inr none
    · obtain ⟨row, -, rfl⟩ := Option.map_eq_some_iff.mp moved
      cases next

/-- `sender` does not pass over an order. -/
theorem getMessage_takes {idx : Nat} {record : SenderComm} (place : s.sender = .receiving)
    (free : s.processorS.locksComms = false) (found : s.comms.getSubblock true 1 = some idx)
    (holds : s.comms.partitions idx = some record) (order : IsOrder record)
    (moved : step s .getMessage = some t) : t.sender = .executing record := by
  simp only [step, place, free, getMessage, found, holds, Option.some.injEq] at moved
  subst moved
  cases record with
  | openConn opncn => rfl
  | closeConn clscn => rfl
  | connection cncsts => cases order
  | message msgsts => cases order

/-- A status that finds no partition leaves a turn to `processor_s`. -/
theorem turn_of_full (attended : Attended s) (full : s.comms.getSubblock false 2 = none) :
    0 < s.semLockSigps + s.processorS.reads := by
  have some : 0 < (s.comms.held 2).length :=
    Block.held_of_full attended.shape.comms full (Block.mem_upper.mpr (by decide : 40 ≤ 40 ∧ 40 < 80))
  exact Nat.lt_of_lt_of_le some attended.statuses

theorem driven_step (attended : Attended s) (driven : Driven s) (answered : Answered s a)
    (other : a ≠ .signal) (moved : step s a = some t) : Driven t := by
  have moves := step_moves moved
  have asks := reads_le_asks s.processorS
  have gives := reads_le_gives s.processorS
  -- a step that leaves the database alone
  have still {u : State} (same : u.db = s.db)
      (commands : SenderSide.commands s.db ≠ [] →
        0 < u.turns + u.processorS.asks + (u.comms.held 1).length + u.sender.executes)
      (messages : s.db.sGetInfo ≠ [] →
        0 < u.turns + u.processorS.gives + (u.datas.held 3).length + u.sender.sends) :
      Driven u := by
    constructor
    · rwa [same]
    · rwa [same]
    · rw [same]
      exact driven.registered
    · rw [same]
      exact driven.addresses
  -- a step in the middle of a turn of `processor_s`
  have within {u : State} (asks : u.processorS.asks = 1) (gives : u.processorS.gives = 1)
      (conns : ∀ sc ∈ u.db.sendingConns, ∃ old ∈ s.db.sendingConns, old.sipaddr = sc.sipaddr)
      (systems : u.db.sysinfo = s.db.sysinfo) : Driven u := by
    constructor
    · intro _
      omega
    · intro _
      omega
    · intro sc member
      obtain ⟨old, inside, same⟩ := conns sc member
      rw [systems, ← same]
      exact driven.registered old inside
    · rw [systems]
      exact driven.addresses
  have alike {u : State} (rows : u.db.sendingConns = s.db.sendingConns) :
      ∀ sc ∈ u.db.sendingConns, ∃ old ∈ s.db.sendingConns, old.sipaddr = sc.sipaddr :=
    fun sc member => ⟨sc, rows ▸ member, rfl⟩
  have commands := driven.commands
  have messages := driven.messages
  cases moves with
  | signal => exact absurd rfl other
  | waitSigps place => exact within rfl rfl (alike rfl) rfl
  | readNothing place => exact within rfl rfl (alike rfl) rfl
  | readConnection place found holds =>
      refine within rfl rfl ?_ rfl
      intro sc member
      obtain ⟨old, inside, rfl⟩ := List.mem_map.mp member
      refine ⟨old, inside, ?_⟩
      split
      · rfl
      · rfl
  | readMessage place found holds => exact within rfl rfl (alike rfl) rfl
  | readOther place found => exact within rfl rfl (alike rfl) rfl
  | deleteComms place => exact within rfl rfl (alike rfl) rfl
  | sendNothing place =>
      refine still rfl ?_ fun _ => by simp [ProcessorS.gives]
      intro some
      have full := (sendMsg_nothing place moved rfl).resolve_right some
      have held := Block.held_of_full attended.shape.comms full (Block.mem_lower.mpr (by decide : 0 < 40))
      dsimp only
      omega
  | sendCommand place => exact within rfl rfl (alike rfl) rfl
  | updateComms place =>
      rename_i idx row
      have count := Block.held_length_write (commandOf row) (attended.shape.marking _ _ place)
      constructor
      · intro _
        dsimp only
        omega
      · intro _
        simp [ProcessorS.gives]
      · exact driven.registered
      · exact driven.addresses
  | giveNothing place nothing =>
      rename_i choice
      rw [place] at commands
      refine still rfl commands ?_
      intro some
      have full : s.datas.getSubblock false 3 = none := by
        by_contra room
        have first := nothing.resolve_left room
        obtain ⟨row, found⟩ := firstInfo_cases (answered room) some first
        cases found
      have held := Block.held_of_full attended.shape.datas full (Block.mem_all.mpr (by decide : 0 < 80))
      dsimp only
      omega
  | giveJob place found first =>
      rename_i choice idx sc js
      have count := Block.held_length_write (sendMessageOf sc js) found
      constructor
      · intro some
        have before := commands some
        have noti : s.db.noti1sender ≤ (s.db.appendW js.jobid).noti1sender := Nat.le_add_right _ _
        rw [place] at before
        simp only [State.turns, ProcessorS.asks] at before ⊢
        omega
      · intro _
        dsimp only
        omega
      · exact driven.registered
      · exact driven.addresses
  | waitSigs place count =>
      rw [place] at commands messages
      exact still rfl commands messages
  | getNothing place none =>
      rw [place] at commands messages
      exact still rfl commands messages
  | getCommand place free found holds =>
      have count := Block.held_length_clear attended.shape.comms found
      rw [place] at messages
      refine still rfl ?_ messages
      intro _
      simp [Sender.executes]
  | getOther place free found =>
      obtain ⟨member, marked⟩ := Block.getSubblock_some found
      obtain ⟨record, holds⟩ := attended.shape.comms _ marked
      have inside := (Block.held_clear found holds).mem_iff.mpr List.mem_cons_self
      cases getMessage_takes place free found holds (attended.orders record inside) moved
  | connectNone place =>
      rw [place] at commands messages
      exact still rfl commands messages
  | connect place =>
      rw [place] at commands messages
      exact still rfl commands messages
  | connectFails place =>
      rw [place] at commands messages
      exact still rfl commands messages
  | close place =>
      rw [place] at commands messages
      exact still rfl commands messages
  | reportConnection place free found =>
      rw [place] at messages
      refine still rfl ?_ ?_
      · intro _
        simp only [State.turns]
        omega
      · intro _
        simp only [State.turns]
        omega
  | dropConnection place full =>
      have turn := turn_of_full attended full
      rw [place] at messages
      refine still rfl ?_ messages
      intro _
      simp only [State.turns]
      omega
  | getNoData place none =>
      rw [place] at commands messages
      exact still rfl commands messages
  | getData place found holds =>
      rw [place] at commands
      refine still rfl commands ?_
      intro _
      simp [Sender.sends]
  | getEmpty place found holds =>
      obtain ⟨sndmsg, filled⟩ := attended.shape.datas _ (Block.getSubblock_some found).2
      cases holds.symm.trans filled
  | sendMore place =>
      rw [place] at commands messages
      exact still rfl commands messages
  | sendDone place =>
      rw [place] at commands messages
      exact still rfl commands messages
  | reportMessage place free found =>
      refine still rfl ?_ ?_
      · intro _
        simp only [State.turns]
        omega
      · intro _
        simp only [State.turns]
        omega
  | dropMessage place full =>
      have turn := turn_of_full attended full
      rw [place] at commands
      refine still rfl commands ?_
      intro _
      simp only [State.turns]
      omega
  | database done performed =>
      rename_i op db
      have announced := others_announce done performed
      have kept := connsKept_others done performed
      -- a new notification is a turn that comes
      have told (more : db.noti1sender ≠ s.db.noti1sender) : 0 < State.turns { s with db := db } := by
        have notified := announced.notified
        simp only [State.turns]
        omega
      constructor
      · intro some
        by_cases same : db.noti1sender = s.db.noti1sender
        · obtain ⟨sm, member, command⟩ := commands_nonempty.mp some
          have before := commands (commands_nonempty.mpr
            ⟨sm, announced.commands same sm member command, command⟩)
          simpa only [State.turns, same] using before
        · have turn := told same
          omega
      · intro some
        by_cases same : db.noti1sender = s.db.noti1sender
        · have before := messages
            (sGetInfo_before announced kept driven.registered driven.addresses same some)
          simpa only [State.turns, same] using before
        · have turn := told same
          omega
      · intro sc member
        rcases kept.registered sc member with old | known
        · obtain ⟨si, inside, same⟩ := driven.registered sc old
          obtain ⟨si', present, -, address⟩ := kept.known.kept si inside
          exact ⟨si', present, address.trans same⟩
        · exact known
      · exact kept.known.addresses driven.addresses

theorem notify_some (done : notify s = some t) : ∃ noti, s.db.noti1sender = noti + 1 ∧ t = { s with
    semLockSigps := s.semLockSigps + 1, db := { s.db with noti1sender := noti } } := by
  unfold notify at done
  split at done
  · next noti count => exact ⟨noti, count, (Option.some.inj done).symm⟩
  · cases done

theorem notified_step (attended : Attended s) (driven : Driven s) (answered : Answered s a)
    (moved : notifiedStep s a = some t) : Attended t ∧ Driven t := by
  by_cases signal : a = .signal
  · subst signal
    obtain ⟨noti, count, rfl⟩ := notify_some moved
    have turns : s.turns = s.semLockSigps + 1 + noti := by
      rw [State.turns, count]
      omega
    constructor
    · have posted := attended_step attended (.signal (s := s))
      obtain ⟨datas, comms, deleting, marking⟩ := posted.shape
      exact ⟨⟨datas, comms, deleting, marking⟩, posted.orders, posted.commands, posted.messages,
        posted.statuses⟩
    · obtain ⟨commands, messages, registered, addresses⟩ := driven
      rw [turns] at commands messages
      exact ⟨commands, messages, registered, addresses⟩
  · have plain : step s a = some t := by
      cases a with
      | signal => exact absurd rfl signal
      | _ => exact moved
    exact ⟨attended_step attended (step_moves plain), driven_step attended driven answered signal plain⟩

theorem attended_initial (db : Db) (sigs sigps : Nat) :
    Attended { initial db sigs with semLockSigps := sigps } := by
  have shape := shape_initial db sigs
  constructor
  · exact ⟨shape.datas, shape.comms, shape.deleting, shape.marking⟩
  · simp [initial, Block.held_empty]
  · simp [initial, Block.held_empty]
  · simp [initial, Block.held_empty]
  · simp [initial, Block.held_empty]

theorem driven_initial {db : Db} (comms : db.sendersComms = []) (conns : db.sendingConns = [])
    (addresses : (db.sysinfo.map SysInfo.ipaddress).Nodup) (sigs sigps : Nat) :
    Driven { initial db sigs with semLockSigps := sigps } := by
  have nobody : db.sGetInfo = [] := by
    rw [Db.sGetInfo, conns]
    rfl
  have nothing : SenderSide.commands db = [] := by
    rw [SenderSide.commands, comms]
    rfl
  constructor
  · exact fun some => absurd nothing some
  · exact fun some => absurd nobody some
  · intro sc member
    rw [show (initial db sigs).db.sendingConns = [] from conns] at member
    cases member
  · exact addresses

theorem not_stranded (attended : Attended s) (driven : Driven s) (blocked : Blocked s) :
    ¬ Stranded s.db := by
  obtain ⟨-, -, commands, messages, -⟩ := attended
  rw [blocked.semLockSigs, blocked.sender] at commands messages
  have turns : s.turns = 0 := by rw [State.turns, blocked.semLockSigps, blocked.delivered]
  rintro (⟨sc, inside, opened, si, present, address, js, listed, toward, state⟩ | ⟨sm, member, command⟩)
  · have reaches : (sc, js) ∈ s.db.sGetInfo :=
      Db.mem_sGetInfo.mpr ⟨inside, listed, state, opened, si, present, toward, address.symm⟩
    have driving := driven.messages (List.ne_nil_of_mem reaches)
    rw [turns, blocked.processorS, blocked.sender] at driving
    simp only [ProcessorS.gives, Sender.sends, Sender.fetches] at driving messages
    omega
  · have driving := driven.commands (commands_nonempty.mpr ⟨sm, member, command⟩)
    rw [turns, blocked.processorS, blocked.sender] at driving
    simp only [ProcessorS.asks, Sender.executes, Sender.receives] at driving commands
    omega

end Driven

/-- In every run from the empty blocks in which `s_get_info` does not raise, nothing that can be
handed over is left when both programs sleep and no notification is on its way. -/
theorem not_stranded_when_blocked {db : Db} {sigs sigps : Nat} {actions : List Action} {s : State}
    (comms : db.sendersComms = []) (conns : db.sendingConns = [])
    (addresses : (db.sysinfo.map SysInfo.ipaddress).Nodup)
    (done : run notifiedStep { initial db sigs with semLockSigps := sigps } actions = some s)
    (answered : Guarded notifiedStep Answered { initial db sigs with semLockSigps := sigps } actions)
    (blocked : Blocked s) : ¬ Stranded s.db := by
  have start := And.intro (attended_initial db sigs sigps) (driven_initial comms conns addresses sigs sigps)
  have keeps (s : State) (a : Action) (t : State) (kept : Attended s ∧ Driven s) (allowed : Answered s a)
      (moved : notifiedStep s a = some t) : Attended t ∧ Driven t :=
    notified_step kept.1 kept.2 allowed moved
  obtain ⟨attended, driven⟩ := guarded_run_keeps keeps start answered done
  exact not_stranded attended driven blocked

instance decidableAnswered (s : State) (a : Action) : Decidable (Answered s a) :=
  match a with
  | .giveData _ => inferInstanceAs (Decidable (_ → ∀ row ∈ s.db.sGetInfo, Numeric row.2.jpriority))
  | .signal => .isTrue trivial
  | .waitSigps => .isTrue trivial
  | .readMsg => .isTrue trivial
  | .deleteComms => .isTrue trivial
  | .sendMsg _ => .isTrue trivial
  | .updateComms => .isTrue trivial
  | .waitSigs => .isTrue trivial
  | .getMessage => .isTrue trivial
  | .connect _ _ => .isTrue trivial
  | .close => .isTrue trivial
  | .reportConnection => .isTrue trivial
  | .getData => .isTrue trivial
  | .send _ => .isTrue trivial
  | .reportMessage => .isTrue trivial
  | .database _ => .isTrue trivial

def firstFileSettled : List Action :=
  firstFile ++ [.send 180, .reportMessage, .waitSigps, .readMsg, .sendMsg 0, .giveData 0,
    .signal, .waitSigps, .readMsg, .sendMsg 0, .giveData 0]

theorem first_file_not_stranded :
    ∃ s, run notifiedStep { initial knownDb 0 with semLockSigps := 0 } firstFileSettled = some s ∧
      Blocked s ∧ ¬ Stranded s.db := by
  have ends : (run notifiedStep { initial knownDb 0 with semLockSigps := 0 } firstFileSettled).map
      (fun s => decide (s.processorS = .waiting) && decide (s.semLockSigps = 0) &&
        decide (s.sender = .waiting) && decide (s.semLockSigs = 0) &&
        decide (s.db.noti1sender = 0)) = some true := by decide +kernel
  have answered : Guarded notifiedStep Answered { initial knownDb 0 with semLockSigps := 0 }
      firstFileSettled := by decide +kernel
  obtain ⟨s, done, test⟩ := Option.map_eq_some_iff.mp ends
  simp only [Bool.and_eq_true, decide_eq_true_eq] at test
  obtain ⟨⟨⟨⟨processorS, sigps⟩, sender⟩, sigs⟩, noti⟩ := test
  have blocked : Blocked s := ⟨processorS, sigps, sender, sigs, noti⟩
  exact ⟨s, done, blocked, not_stranded_when_blocked rfl rfl (by decide +kernel) done answered blocked⟩

end SenderSide

end FileSharing
