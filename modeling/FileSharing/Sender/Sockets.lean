import FileSharing.Library.Connections
import FileSharing.Sender.Descriptors

/-! The commands that open connections and the sockets that they leave: at most one for each
address, as long as no port changes under a command. -/

namespace FileSharing

open Library RunJobs

namespace SenderSide

def IsOpen (mtype : MType) : Prop := mtype = .openConn ∨ mtype = .W .openConn

instance (mtype : MType) : Decidable (IsOpen mtype) := inferInstanceAs (Decidable (_ ∨ _))

/-- An open command for the address that is in the table, in shared memory or with `sender`. -/
def Outstanding (s : State) (ipaddress : Int) (scommid : Nat) : Prop :=
  (∃ sm ∈ s.db.sendersComms, IsOpen sm.mtype ∧ sm.mdata1 = ipaddress ∧ sm.scommid = scommid) ∨
  (∃ opncn, .openConn opncn ∈ s.orders ∧ opncn.ipaddress = ipaddress ∧
    opncn.scommid = scommid) ∨
  ∃ cncsts ∈ s.statuses, cncsts.ipaddress = ipaddress ∧ cncsts.scommid = scommid ∧
    ∀ sm ∈ s.db.sendersComms, sm.scommid = scommid → ¬ IsClose sm.mtype

/-- Each address has one open command and one socket at most, and each open socket is a
connection that `sending_conns` has, or whose status is on its way. -/
structure Single (s : State) : Prop where
  commands : ∀ ipaddress scommid scommid', Outstanding s ipaddress scommid →
    Outstanding s ipaddress scommid' → scommid = scommid'
  sockets : ∀ fd fd' ipaddress, s.sockets fd = some (.connected ipaddress) →
    s.sockets fd' = some (.connected ipaddress) → fd = fd'
  connected : ∀ fd, s.sockets fd ≠ some .failed
  remembered : ∀ fd ipaddress, s.sockets fd = some (.connected ipaddress) →
    (∃ sc ∈ s.db.sendingConns, sc.sipaddr = ipaddress ∧ sc.sfd = fd ∧ sc.scstatus = 2) ∨
      ∃ cncsts ∈ s.statuses, cncsts.ipaddress = ipaddress ∧ cncsts.fd = fd

/-- The rows that a pass selects to open connections have addresses that fit an `int` and are
not negative, and the port of the command that is outstanding for the address. -/
def SamePort (env : Env) (db : Db) : Prop :=
  match beforeConns env db with
  | .error _ => True
  | .ok u => ∀ row ∈ openRows (registerConns u), (0 ≤ row.1 ∧ row.1 ≤ int4Max) ∧
      ∀ sm ∈ u.sendersComms, IsOpen sm.mtype → sm.mdata1 = row.1 → row.2 = some sm.mdata2

instance (env : Env) (db : Db) : Decidable (SamePort env db) := by
  unfold SamePort
  split
  · exact .isTrue trivial
  · exact inferInstance

/-- No port changes under an open command, a socket that is made gets connected, and the
status of a connection finds a free partition. -/
def Steady (s : State) : Action → Prop
  | .database (.runJobs env) => SamePort env s.db
  | .connect fd established => fd.isSome → established = true
  | .reportConnection => ∃ k ∈ Block.region 2, s.comms.bit k = false
  | _ => True

instance (s : State) (a : Action) : Decidable (Steady s a) := by
  unfold Steady
  split
  · exact inferInstance
  · exact inferInstance
  · exact inferInstance
  · exact .isTrue trivial

section Traffic

variable {s t : State}

structure Quiet (s t : State) : Prop where
  sendersComms : t.db.sendersComms = s.db.sendersComms
  scommidSeq : s.db.scommidSeq ≤ t.db.scommidSeq
  sendingConns : t.db.sendingConns = s.db.sendingConns
  addresses : (s.db.sysinfo.map SysInfo.ipaddress).Nodup → (t.db.sysinfo.map SysInfo.ipaddress).Nodup
  orders : ∃ gone, (gone ++ t.orders).Perm s.orders
  statuses : t.statuses.Perm s.statuses
  sockets : t.sockets = s.sockets
  recorded : ∀ scommid, Recorded t scommid ↔ Recorded s scommid
  marking : ∀ idx row, t.processorS = .marking idx row →
    s.processorS = .marking idx row ∨ row ∈ commands s.db

inductive Traffic (s : State) : Action → State → Prop
  | quiet {a : Action} {t : State} (quiet : Quiet s t) : Traffic s a t
  | record {idx : Nat} {cncsts : ConnectionStatus} (place : s.processorS = .reading)
      (found : s.comms.getSubblock true 2 = some idx)
      (holds : s.comms.partitions idx = some (.connection cncsts)) :
      Traffic s .readMsg { s with
        processorS := .deleting idx cncsts.scommid
        db := s.db.sUpdateConns cncsts.ipaddress cncsts.fd (if cncsts.fd ≥ 0 then 2 else 1) }
  | delete {idx : Nat} {cncsts : ConnectionStatus}
      (place : s.processorS = .deleting idx cncsts.scommid)
      (found : s.comms.getSubblock true 2 = some idx)
      (holds : s.comms.partitions idx = some (.connection cncsts)) :
      Traffic s .deleteComms { s with
        comms := s.comms.toggleBit idx
        processorS := .commanding
        db := s.db.sDeleteComms cncsts.scommid }
  | hand {idx : Nat} {row : SendersComm} (place : s.processorS = .marking idx row)
      (found : s.comms.getSubblock false 1 = some idx) :
      Traffic s .updateComms { s with
        comms := s.comms.write idx (commandOf row)
        semLockSigs := s.semLockSigs + 1
        processorS := .giving
        db := s.db.sUpdateComms row.scommid }
  | refuse {opncn : OpenConnection} {established : Bool}
      (place : s.sender = .executing (.openConn opncn)) :
      Traffic s (.connect none established)
        { s with sender := .reporting ⟨-1, opncn.ipaddress, opncn.scommid⟩ }
  | connect {opncn : OpenConnection} {fd : Int} (place : s.sender = .executing (.openConn opncn))
      (low : 0 ≤ fd) (high : fd ≤ int4Max) (unused : s.sockets fd = none) :
      Traffic s (.connect (some fd) true) { s with
        sockets := Function.update s.sockets fd (some (.connected opncn.ipaddress))
        sender := .reporting ⟨fd, opncn.ipaddress, opncn.scommid⟩ }
  | leak {fd : Int} {t : State} : Traffic s (.connect (some fd) false) t
  | close {clscn : CloseConnection} (place : s.sender = .executing (.closeConn clscn)) :
      Traffic s .close { s with
        sockets := Function.update s.sockets clscn.fd none
        sender := .reporting ⟨-1, clscn.ipaddress, clscn.scommid⟩ }
  | drop {t : State} (full : s.comms.getSubblock false 2 = none) : Traffic s .reportConnection t
  | pass {env : Env} {u db : Db} (before : beforeConns env s.db = .ok u)
      (managed : manageConns u = .ok db) : Traffic s (.database (.runJobs env)) { s with db := db }

theorem Quiet.relocate {comms : Block SenderComm} {datas : Block SendMessage} {sender : Sender}
    {processorS : ProcessorS} {db : Db} (sigs sigps : Nat) (conns : SameConns s.db db)
    (systems : Known s.db db)
    (orders : ∃ gone, (gone ++ (sender.command ++ comms.held 1)).Perm s.orders)
    (statuses : (sender.report ++ (comms.held 2).filterMap connectionOf).Perm s.statuses)
    (same : processorS = s.processorS ∨ (∀ scommid, ¬ Recorded s scommid) ∧
      (∀ idx scommid, processorS ≠ .deleting idx scommid) ∧
      ∀ idx row, processorS = .marking idx row → row ∈ commands s.db) :
    Quiet s ⟨datas, comms, sigs, sigps, processorS, sender, s.sockets, db⟩ := by
  constructor
  · exact conns.sendersComms
  · exact conns.scommidSeq.ge
  · exact conns.sendingConns
  · exact systems.addresses
  · exact orders
  · exact statuses
  · rfl
  · intro scommid
    rcases same with rfl | ⟨nothing, other, -⟩
    · exact Iff.rfl
    · refine iff_of_false ?_ (nothing scommid)
      rintro ⟨idx, place⟩
      exact other idx scommid place
  · intro idx row place
    rcases same with rfl | ⟨-, -, listed⟩
    · exact .inl place
    · exact .inr (listed idx row place)

theorem traffic {a : Action} (shape : Shape s) (moves : Moves s a t) : Traffic s a t := by
  have same := SameConns.refl s.db
  have systems : Known s.db s.db := .of_eq rfl
  -- `sender` moves on and holds neither a command nor a status
  have onward {sender : Sender} (command : sender.command = s.sender.command)
      (report : sender.report = s.sender.report) {datas : Block SendMessage} (sigs sigps : Nat) :
      Quiet s ⟨datas, s.comms, sigs, sigps, s.processorS, sender, s.sockets, s.db⟩ := by
    apply Quiet.relocate _ _ same systems
    · exact ⟨[], by rw [command]; exact .refl _⟩
    · rw [report]
      exact .refl _
    · exact .inl rfl
  -- `processor_s` moves on outside its two statements
  have between {place processorS : ProcessorS} (now : s.processorS = place)
      (other : ∀ idx scommid, place ≠ .deleting idx scommid)
      (other' : ∀ idx scommid, processorS ≠ .deleting idx scommid)
      (marking : ∀ idx row, processorS = .marking idx row → row ∈ commands s.db)
      {datas : Block SendMessage} {db : Db} (sigs sigps : Nat) (conns : SameConns s.db db)
      (known : Known s.db db) :
      Quiet s ⟨datas, s.comms, sigs, sigps, processorS, s.sender, s.sockets, db⟩ := by
    apply Quiet.relocate _ _ conns known
    · exact ⟨[], .refl _⟩
    · exact .refl _
    · exact .inr ⟨not_recorded now other, other', marking⟩
  have emptied {idx : Nat} {record : SenderComm} {db : Db} (place : s.processorS = .reading)
      (found : s.comms.getSubblock true 2 = some idx) (holds : s.comms.partitions idx = some record)
      (none : connectionOf record = none) (conns : SameConns s.db db) (known : Known s.db db) :
      Quiet s { s with comms := s.comms.toggleBit idx, processorS := .commanding, db := db } := by
    have upper := (Block.held_clear found holds).filterMap connectionOf
    rw [List.filterMap_cons, none] at upper
    have lower := Block.held_clear_outside (Block.getSubblock_some found).2 (upper_outside found)
    apply Quiet.relocate _ _ conns known
    · exact ⟨[], .of_eq (by rw [lower]; rfl)⟩
    · exact upper.symm.append_left _
    · exact .inr ⟨not_recorded place nofun, nofun, nofun⟩
  cases moves with
  | signal => exact .quiet (onward rfl rfl _ _)
  | waitSigps place => exact .quiet (between place nofun (by nofun) (by nofun) _ _ same systems)
  | readNothing place => exact .quiet (between place nofun (by nofun) (by nofun) _ _ same systems)
  | readConnection place found holds => exact .record place found holds
  | readMessage place found holds =>
      exact .quiet (emptied place found holds rfl ⟨rfl, rfl, rfl⟩ (.of_eq rfl))
  | readOther place found noConnection noMessage =>
      obtain ⟨record, holds⟩ := shape.comms _ (Block.getSubblock_some found).2
      have none : connectionOf record = none := by
        cases record with
        | connection cncsts => exact absurd holds (noConnection cncsts)
        | _ => rfl
      exact .quiet (emptied place found holds none same systems)
  | deleteComms place =>
      obtain ⟨found, cncsts, holds, rfl⟩ := shape.deleting _ _ place
      exact .delete place found holds
  | sendNothing place => exact .quiet (between place nofun (by nofun) (by nofun) _ _ same systems)
  | sendCommand place found listed =>
      refine .quiet (between place nofun (by nofun) (fun idx row marks => ?_) _ _ same systems)
      cases marks
      exact listed
  | updateComms place => exact .hand place (shape.marking _ _ place)
  | giveNothing place => exact .quiet (between place nofun (by nofun) (by nofun) _ _ same systems)
  | giveJob place found first =>
      exact .quiet (between place nofun (by nofun) (by nofun) _ _ ⟨rfl, rfl, rfl⟩ (.of_eq rfl))
  | waitSigs place => exact .quiet (onward (by rw [place]; rfl) (by rw [place]; rfl) _ _)
  | getNothing place => exact .quiet (onward (by rw [place]; rfl) (by rw [place]; rfl) _ _)
  | getCommand place free found holds =>
      have upper := Block.held_clear_outside (Block.getSubblock_some found).2 (lower_outside found)
      apply Traffic.quiet
      apply Quiet.relocate _ _ same systems
      · refine ⟨[], ?_⟩
        rw [State.orders, place]
        exact (Block.held_clear found holds).symm
      · rw [State.statuses, place, upper]
        exact .refl _
      · exact .inl rfl
  | getOther place free found =>
      obtain ⟨record, holds⟩ := shape.comms _ (Block.getSubblock_some found).2
      have upper := Block.held_clear_outside (Block.getSubblock_some found).2 (lower_outside found)
      apply Traffic.quiet
      apply Quiet.relocate _ _ same systems
      · refine ⟨[record], ?_⟩
        rw [State.orders, place]
        exact (Block.held_clear found holds).symm
      · rw [State.statuses, place, upper]
        exact .refl _
      · exact .inl rfl
  | connectNone place => exact .refuse place
  | connect place low high unused => exact .connect place low high unused
  | connectFails => exact .leak
  | close place => exact .close place
  | reportConnection place free found =>
      rename_i idx cncsts
      have upper := (Block.held_write (a := SenderComm.connection cncsts) found).filterMap connectionOf
      have lower := Block.held_write_outside (a := SenderComm.connection cncsts)
        (Block.getSubblock_some found).2 (upper_outside found)
      apply Traffic.quiet
      apply Quiet.relocate _ _ same systems
      · refine ⟨[], ?_⟩
        rw [State.orders, place, lower]
        exact .refl _
      · rw [State.statuses, place]
        exact upper
      · exact .inl rfl
  | dropConnection place full => exact .drop full
  | getNoData place => exact .quiet (onward (by rw [place]; rfl) (by rw [place]; rfl) _ _)
  | getData place => exact .quiet (onward (by rw [place]; rfl) (by rw [place]; rfl) _ _)
  | getEmpty place => exact .quiet (onward (by rw [place]; rfl) (by rw [place]; rfl) _ _)
  | sendMore place => exact .quiet (onward (by rw [place]; rfl) (by rw [place]; rfl) _ _)
  | sendDone place => exact .quiet (onward (by rw [place]; rfl) (by rw [place]; rfl) _ _)
  | reportMessage place free found =>
      rename_i idx msgsts
      have upper := (Block.held_write (a := SenderComm.message msgsts) found).filterMap connectionOf
      have lower := Block.held_write_outside (a := SenderComm.message msgsts)
        (Block.getSubblock_some found).2 (upper_outside found)
      apply Traffic.quiet
      apply Quiet.relocate _ _ same systems
      · refine ⟨[], ?_⟩
        rw [State.orders, place, lower]
        exact .refl _
      · rw [State.statuses, place]
        exact upper
      · exact .inl rfl
  | dropMessage place => exact .quiet (onward (by rw [place]; rfl) (by rw [place]; rfl) _ _)
  | database other done =>
      rename_i op db
      have quiet {db : Db} (conns : SameConns s.db db) (known : Known s.db db) :
          Quiet s { s with db := db } := by
        apply Quiet.relocate _ _ conns known
        · exact ⟨[], .refl _⟩
        · exact .refl _
        · exact .inl rfl
      by_cases pass : ∃ env, op = .runJobs env
      · obtain ⟨env, rfl⟩ := pass
        obtain rfl := Option.some.inj done
        rcases Db.attempt_cases s.db (runJobs env s.db) with still | ⟨u, ok, after⟩
        · rw [still]
          exact .quiet (quiet same systems)
        · rw [after]
          obtain ⟨v, before, managed⟩ := runJobs_managed.mp ok
          exact .pass before managed
      · obtain ⟨conns, kept⟩ := others_conns other (fun env equal => pass ⟨env, equal⟩) done
        exact .quiet (quiet conns (.of_eq kept))

end Traffic

def kindOf : Aim Int → MType
  | .opens => .openConn
  | .closes _ => .closeConn

def mtypeOf (aim : Aim Int) : Stage Int → MType
  | .asked => kindOf aim
  | _ => .W (kindOf aim)

structure Fits (sm : SendersComm) (command : Command Int Int) : Prop where
  address : command.address = sm.mdata1
  mtype : sm.mtype = mtypeOf command.aim command.stage
  fd : ∀ fd, command.aim = .closes fd → sm.mdata2 = fd

def resultOf (cncsts : ConnectionStatus) : Option Int :=
  if 0 ≤ cncsts.fd then some cncsts.fd else none

def connOf (sc : SendingConn) : Conn Int := if sc.scstatus = 2 then .opened sc.sfd else .closed

/-- The tables, the blocks and the sockets as a table of commands: a row whose status is
recorded is no command any more. -/
structure Refines (s : State) (v : Table Nat Int Int) : Prop where
  scommids : (s.db.sendersComms.map SendersComm.scommid).Nodup
  below : ∀ sm ∈ s.db.sendersComms, sm.scommid < s.db.scommidSeq
  tokens : s.tokens.Nodup
  marking : ∀ idx row, s.processorS = .marking idx row → row ∈ commands s.db
  addresses : (s.db.sysinfo.map SysInfo.ipaddress).Nodup
  range : ∀ sm ∈ s.db.sendersComms, IsInt4 sm.mdata1 ∧ (IsClose sm.mtype → IsInt4 sm.mdata2)
  alone : ∀ sm ∈ s.db.sendersComms, ∀ sm' ∈ s.db.sendersComms, IsOpen sm.mtype → IsOpen sm'.mtype →
    sm.mdata1 = sm'.mdata1 → sm.scommid = sm'.scommid
  commands : ∀ scommid command, v.command scommid = some command → ¬ Recorded s scommid ∧
    ∃ sm ∈ s.db.sendersComms, sm.scommid = scommid ∧ Fits sm command
  rows : ∀ sm ∈ s.db.sendersComms, ¬ Recorded s sm.scommid →
    ∃ command, v.command sm.scommid = some command
  opens : ∀ opncn, .openConn opncn ∈ s.orders →
    v.command opncn.scommid = some ⟨opncn.ipaddress, .opens, .issued⟩
  closes : ∀ clscn, .closeConn clscn ∈ s.orders →
    v.command clscn.scommid = some ⟨clscn.ipaddress, .closes clscn.fd, .issued⟩
  statuses : ∀ cncsts ∈ s.statuses, ¬ Recorded s cncsts.scommid →
    ∃ aim, v.command cncsts.scommid = some ⟨cncsts.ipaddress, aim, .reported (resultOf cncsts)⟩
  reports : ∀ cncsts ∈ s.statuses, IsInt4 cncsts.fd ∧ ∃ sm ∈ s.db.sendersComms,
    sm.scommid = cncsts.scommid ∧ sm.mdata1 = cncsts.ipaddress ∧ ∃ aim, sm.mtype = .W (kindOf aim)
  reported : ∀ scommid ipaddress aim fd,
    v.command scommid = some ⟨ipaddress, aim, .reported (some fd)⟩ →
      ∃ cncsts ∈ s.statuses, cncsts.scommid = scommid ∧ cncsts.ipaddress = ipaddress ∧
        cncsts.fd = fd
  conns : ∀ sc ∈ s.db.sendingConns, v.conn sc.sipaddr = connOf sc ∧
    (sc.scstatus = 2 → IsInt4 sc.sipaddr ∧ IsInt4 sc.sfd)
  known : ∀ ipaddress, v.conn ipaddress ≠ .unknown → ∃ sc ∈ s.db.sendingConns, sc.sipaddr = ipaddress
  sockets : ∀ fd, s.sockets fd = (v.socket fd).map Socket.connected

section Refines

variable {s t : State} {v w : Table Nat Int Int}

theorem connOf_opened {sc : SendingConn} {fd : Int} (opened : connOf sc = .opened fd) :
    sc.sfd = fd ∧ sc.scstatus = 2 := by
  unfold connOf at opened
  split at opened
  · next status => exact ⟨Conn.opened.inj opened, status⟩
  · cases opened

theorem Refines.outstanding (refines : Refines s v) {ipaddress : Int} {scommid : Nat}
    (outstanding : Outstanding s ipaddress scommid) :
    ∃ sm ∈ s.db.sendersComms, IsOpen sm.mtype ∧ sm.mdata1 = ipaddress ∧ sm.scommid = scommid := by
  rcases outstanding with row | ⟨opncn, member, rfl, rfl⟩ | ⟨cncsts, member, rfl, rfl, other⟩
  · exact row
  · obtain ⟨-, sm, inside, same, fits⟩ := refines.commands _ _ (refines.opens opncn member)
    exact ⟨sm, inside, .inr fits.mtype, fits.address.symm, same⟩
  · obtain ⟨-, sm, inside, same, address, aim, mtype⟩ := refines.reports cncsts member
    refine ⟨sm, inside, ?_, address, same⟩
    cases aim with
    | opens => exact .inr mtype
    | closes fd => exact absurd (.inr mtype) (other sm inside same)

theorem Refines.single (refines : Refines s v) (owned : v.Owned) : Single s := by
  have socket {fd ipaddress : Int} (opened : s.sockets fd = some (.connected ipaddress)) :
      v.socket fd = some ipaddress := by
    rw [refines.sockets, Option.map_eq_some_iff] at opened
    obtain ⟨peer, found, same⟩ := opened
    rw [found, Socket.connected.inj same]
  constructor
  · intro ipaddress scommid scommid' first second
    obtain ⟨sm, inside, kind, address, rfl⟩ := refines.outstanding first
    obtain ⟨sm', inside', kind', address', rfl⟩ := refines.outstanding second
    exact refines.alone sm inside sm' inside' kind kind' (address.trans address'.symm)
  · intro fd fd' ipaddress first second
    exact owned.one (socket first) (socket second)
  · intro fd failed
    rw [refines.sockets, Option.map_eq_some_iff] at failed
    obtain ⟨peer, -, same⟩ := failed
    cases same
  · intro fd ipaddress opened
    rcases owned.owner fd ipaddress (socket opened) with recorded | ⟨scommid, waits⟩
    · obtain ⟨sc, member, rfl⟩ := refines.known ipaddress (by rw [recorded]; nofun)
      have same := connOf_opened ((refines.conns sc member).1.symm.trans recorded)
      exact .inl ⟨sc, member, rfl, same⟩
    · obtain ⟨cncsts, member, -, address, same⟩ := refines.reported _ _ _ _ waits
      exact .inr ⟨cncsts, member, address, same⟩

theorem Refines.quiet (refines : Refines s v) (quiet : Quiet s t) : Refines t v := by
  obtain ⟨gone, perm⟩ := quiet.orders
  have order {command : SenderComm} (member : command ∈ t.orders) : command ∈ s.orders :=
    perm.mem_iff.mp (List.mem_append_right _ member)
  have fresh {scommid : Nat} (other : ¬ Recorded s scommid) : ¬ Recorded t scommid :=
    mt (quiet.recorded scommid).mp other
  have stale {scommid : Nat} (other : ¬ Recorded t scommid) : ¬ Recorded s scommid :=
    mt (quiet.recorded scommid).mpr other
  constructor
  · exact quiet.sendersComms ▸ refines.scommids
  · exact quiet.sendersComms ▸ fun sm inside => (refines.below sm inside).trans_le quiet.scommidSeq
  · have moved := (perm.filterMap commandId).append (quiet.statuses.map ConnectionStatus.scommid)
    rw [List.filterMap_append, List.append_assoc] at moved
    exact (List.nodup_append.mp (moved.nodup_iff.mpr refines.tokens)).2.1
  · intro idx row place
    unfold SenderSide.commands
    rw [quiet.sendersComms]
    cases quiet.marking idx row place with
    | inl before => exact refines.marking idx row before
    | inr listed => exact listed
  · exact quiet.addresses refines.addresses
  · exact quiet.sendersComms ▸ refines.range
  · exact quiet.sendersComms ▸ refines.alone
  · intro scommid command present
    obtain ⟨other, row⟩ := refines.commands scommid command present
    exact ⟨fresh other, quiet.sendersComms ▸ row⟩
  · intro sm inside other
    exact refines.rows sm (quiet.sendersComms ▸ inside) (stale other)
  · exact fun opncn member => refines.opens opncn (order member)
  · exact fun clscn member => refines.closes clscn (order member)
  · intro cncsts member other
    exact refines.statuses cncsts (quiet.statuses.mem_iff.mp member) (stale other)
  · intro cncsts member
    exact quiet.sendersComms ▸ refines.reports cncsts (quiet.statuses.mem_iff.mp member)
  · intro scommid ipaddress aim fd present
    obtain ⟨cncsts, member, same⟩ := refines.reported scommid ipaddress aim fd present
    exact ⟨cncsts, quiet.statuses.mem_iff.mpr member, same⟩
  · exact quiet.sendingConns ▸ refines.conns
  · exact quiet.sendingConns ▸ refines.known
  · exact quiet.sockets ▸ refines.sockets

theorem Refines.row (refines : Refines s v) {first second : SendersComm}
    (inside : first ∈ s.db.sendersComms) (inside' : second ∈ s.db.sendersComms)
    (same : first.scommid = second.scommid) : first = second :=
  List.inj_on_of_nodup_map refines.scommids inside inside' same

theorem refines_record (refines : Refines s v) (owned : v.Owned) {idx : Nat} {cncsts : ConnectionStatus}
    (place : s.processorS = .reading) (found : s.comms.getSubblock true 2 = some idx)
    (holds : s.comms.partitions idx = some (.connection cncsts)) :
    ∃ w, v.Turn w ∧ Refines { s with
      processorS := .deleting idx cncsts.scommid
      db := s.db.sUpdateConns cncsts.ipaddress cncsts.fd (if cncsts.fd ≥ 0 then 2 else 1) } w := by
  have member := mem_statuses found holds
  have nothing := not_recorded place fun _ _ same => by cases same
  obtain ⟨aim, present⟩ := refines.statuses cncsts member (nothing _)
  obtain ⟨range, row, listed, -, address, -⟩ := refines.reports cncsts member
  have kept {scommid : Nat} {command : Command Int Int} (other : scommid ≠ cncsts.scommid)
      (before : v.command scommid = some command) :
      (v.setCommand cncsts.scommid none).command scommid = some command :=
    Table.setCommand_some.mpr (.inr ⟨other, before⟩)
  have was {scommid : Nat} {command : Command Int Int}
      (after : (v.setCommand cncsts.scommid none).command scommid = some command) :
      scommid ≠ cncsts.scommid ∧ v.command scommid = some command := by
    rcases Table.setCommand_some.mp after with ⟨-, new⟩ | old
    · cases new
    · exact old
  have issued {scommid : Nat} {ipaddress : Int} {aim' : Aim Int}
      (order : v.command scommid = some ⟨ipaddress, aim', .issued⟩) : scommid ≠ cncsts.scommid := by
    rintro rfl
    cases present.symm.trans order
  refine ⟨_, .record present, ?_⟩
  constructor
  · exact refines.scommids
  · exact refines.below
  · exact refines.tokens
  · intro idx' row' marks
    cases marks
  · exact refines.addresses
  · exact refines.range
  · exact refines.alone
  · intro scommid command after
    obtain ⟨other, before⟩ := was after
    refine ⟨?_, (refines.commands scommid command before).2⟩
    rintro ⟨idx', same⟩
    cases same
    exact other rfl
  · intro sm inside other
    obtain ⟨command, before⟩ := refines.rows sm inside (nothing _)
    exact ⟨command, kept (fun same => other ⟨idx, by rw [same]⟩) before⟩
  · exact fun opncn order => kept (issued (refines.opens opncn order)) (refines.opens opncn order)
  · exact fun clscn order => kept (issued (refines.closes clscn order)) (refines.closes clscn order)
  · intro other inside fresh
    obtain ⟨aim', before⟩ := refines.statuses other inside (nothing _)
    exact ⟨aim', kept (fun same => fresh ⟨idx, by rw [same]⟩) before⟩
  · exact refines.reports
  · exact fun scommid ipaddress aim' fd after => refines.reported _ _ _ _ (was after).2
  · intro sc inside
    obtain ⟨old, before, rfl⟩ := List.mem_map.mp inside
    by_cases same : old.sipaddr = cncsts.ipaddress
    · rw [if_pos same]
      refine ⟨?_, fun _ => ⟨?_, range⟩⟩
      · by_cases low : 0 ≤ cncsts.fd
        · simp [Table.setConn, same, connOf, Conn.ofResult, resultOf, low]
        · simp [Table.setConn, same, connOf, Conn.ofResult, resultOf, low]
      · rw [same, ← address]
        exact (refines.range row listed).1
    · rw [if_neg same]
      obtain ⟨conn, fits⟩ := refines.conns old before
      exact ⟨by simpa [Table.setConn, Table.setCommand, same] using conn, fits⟩
  · intro ipaddress known
    have before : v.conn ipaddress ≠ .unknown := by
      by_cases same : ipaddress = cncsts.ipaddress
      · rw [same, owned.agree _ _ present]
        cases aim with
        | opens =>
            intro same
            cases same
        | closes fd =>
            intro same
            cases same
      · simpa [Table.setConn, Table.setCommand, same] using known
    obtain ⟨sc, inside, rfl⟩ := refines.known ipaddress before
    refine ⟨_, List.mem_map_of_mem inside, ?_⟩
    split
    · rfl
    · rfl
  · exact refines.sockets

theorem refines_delete (refines : Refines s v) {idx : Nat} {cncsts : ConnectionStatus}
    (place : s.processorS = .deleting idx cncsts.scommid)
    (found : s.comms.getSubblock true 2 = some idx)
    (holds : s.comms.partitions idx = some (.connection cncsts)) : Refines { s with
      comms := s.comms.toggleBit idx
      processorS := .commanding
      db := s.db.sDeleteComms cncsts.scommid } v := by
  have before {sm : SendersComm} (inside : sm ∈ (s.db.sDeleteComms cncsts.scommid).sendersComms) :
      sm ∈ s.db.sendersComms ∧ sm.scommid ≠ cncsts.scommid := by
    simpa [Db.sDeleteComms] using inside
  have kept {sm : SendersComm} (inside : sm ∈ s.db.sendersComms)
      (other : sm.scommid ≠ cncsts.scommid) :
      sm ∈ (s.db.sDeleteComms cncsts.scommid).sendersComms := by
    simpa [Db.sDeleteComms] using And.intro inside other
  have fresh {scommid : Nat} (other : scommid ≠ cncsts.scommid) : ¬ Recorded s scommid := by
    rintro ⟨idx', same⟩
    cases place.symm.trans same
    exact other rfl
  have recorded : Recorded s cncsts.scommid := ⟨idx, place⟩
  have lower : (s.comms.toggleBit idx).held 1 = s.comms.held 1 :=
    Block.held_clear_outside (Block.getSubblock_some found).2 (upper_outside found)
  have upper : s.statuses.Perm (cncsts :: (s.sender.report ++
      ((s.comms.toggleBit idx).held 2).filterMap connectionOf)) := by
    have moved := (Block.held_clear found holds).filterMap connectionOf
    exact (moved.append_left s.sender.report).trans List.perm_middle
  have tokens : s.tokens.Perm (cncsts.scommid :: (s.orders.filterMap commandId ++
      (s.sender.report ++ ((s.comms.toggleBit idx).held 2).filterMap connectionOf).map
        ConnectionStatus.scommid)) := by
    have moved := upper.map ConnectionStatus.scommid
    rw [List.map_cons] at moved
    exact (moved.append_left (s.orders.filterMap commandId)).trans List.perm_middle
  obtain ⟨apart, unique⟩ := List.nodup_cons.mp (tokens.nodup_iff.mp refines.tokens)
  have order {command : SenderComm} (member : command ∈ s.sender.command ++
      (s.comms.toggleBit idx).held 1) : command ∈ s.orders := by
    rwa [lower] at member
  have status {other : ConnectionStatus} (member : other ∈ s.sender.report ++
      ((s.comms.toggleBit idx).held 2).filterMap connectionOf) :
      other ∈ s.statuses ∧ other.scommid ≠ cncsts.scommid := by
    refine ⟨upper.mem_iff.mpr (List.mem_cons_of_mem _ member), fun same => apart ?_⟩
    exact List.mem_append_right _ (same ▸ List.mem_map_of_mem member)
  constructor
  · exact refines.scommids.sublist (List.filter_sublist.map _)
  · exact fun sm inside => refines.below sm (before inside).1
  · simp only [State.tokens, State.orders, lower]
    exact unique
  · intro idx' row marks
    cases marks
  · exact refines.addresses
  · exact fun sm inside => refines.range sm (before inside).1
  · exact fun sm inside sm' inside' => refines.alone sm (before inside).1 sm' (before inside').1
  · intro scommid command present
    obtain ⟨other, sm, inside, rfl, fits⟩ := refines.commands scommid command present
    refine ⟨?_, sm, kept inside ?_, rfl, fits⟩
    · rintro ⟨idx', same⟩
      cases same
    intro same
    exact other (same ▸ recorded)
  · exact fun sm inside _ => refines.rows sm (before inside).1 (fresh (before inside).2)
  · exact fun opncn member => refines.opens opncn (order member)
  · exact fun clscn member => refines.closes clscn (order member)
  · exact fun other member _ => refines.statuses other (status member).1 (fresh (status member).2)
  · intro other member
    obtain ⟨range, sm, inside, same, rest⟩ := refines.reports other (status member).1
    exact ⟨range, sm, kept inside (same ▸ (status member).2), same, rest⟩
  · intro scommid ipaddress aim fd present
    obtain ⟨other, member, rfl, rest⟩ := refines.reported scommid ipaddress aim fd present
    rcases List.mem_cons.mp (upper.mem_iff.mp member) with rfl | later
    · exact absurd recorded (refines.commands _ _ present).1
    · exact ⟨other, later, rfl, rest⟩
  · exact refines.conns
  · exact refines.known
  · exact refines.sockets

theorem marked_row {row : SendersComm} {command : Command Int Int} (listed : row ∈ commands s.db)
    (fits : Fits row command) : command.stage = .asked ∧ row.mtype = kindOf command.aim := by
  have test := (List.mem_filter.mp listed).2
  have mtype := fits.mtype
  cases stage : command.stage with
  | asked => exact ⟨rfl, by rw [mtype, stage]; rfl⟩
  | issued =>
      rw [stage] at mtype
      simp [mtype, mtypeOf] at test
  | reported fd =>
      rw [stage] at mtype
      simp [mtype, mtypeOf] at test

theorem refines_hand (refines : Refines s v) {idx : Nat} {row : SendersComm}
    (place : s.processorS = .marking idx row) (found : s.comms.getSubblock false 1 = some idx) :
    ∃ w, v.Turn w ∧ Refines { s with
      comms := s.comms.write idx (commandOf row)
      semLockSigs := s.semLockSigs + 1
      processorS := .giving
      db := s.db.sUpdateComms row.scommid } w := by
  have listed := refines.marking idx row place
  have inside := (List.mem_filter.mp listed).1
  have nothing := not_recorded place fun _ _ same => by cases same
  obtain ⟨⟨ipaddress, aim, stage⟩, present⟩ := refines.rows row inside (nothing _)
  obtain ⟨-, row', inside', same', fits⟩ := refines.commands _ _ present
  obtain rfl := refines.row inside' inside same'
  obtain ⟨rfl, mtype⟩ := marked_row listed fits
  obtain rfl : ipaddress = row'.mdata1 := fits.address
  refine ⟨_, .issue present, ?_⟩
  have after {sm : SendersComm} (member : sm ∈ (s.db.sUpdateComms row'.scommid).sendersComms) :
      sm = { row' with mtype := .W (kindOf aim) } ∨
        sm ∈ s.db.sendersComms ∧ sm.scommid ≠ row'.scommid := by
    obtain ⟨old, before, rfl⟩ := List.mem_map.mp member
    by_cases same : old.scommid = row'.scommid
    · obtain rfl := refines.row before inside same
      rw [if_pos rfl, mtype]
      exact .inl rfl
    · rw [if_neg same]
      exact .inr ⟨before, same⟩
  have now : { row' with mtype := .W (kindOf aim) } ∈
      (s.db.sUpdateComms row'.scommid).sendersComms :=
    List.mem_map.mpr ⟨row', inside, by rw [if_pos rfl, mtype]⟩
  have kept {sm : SendersComm} (before : sm ∈ s.db.sendersComms)
      (other : sm.scommid ≠ row'.scommid) : sm ∈ (s.db.sUpdateComms row'.scommid).sendersComms :=
    List.mem_map.mpr ⟨sm, before, if_neg other⟩
  have lower : (s.sender.command ++ (s.comms.write idx (commandOf row')).held 1).Perm
      (commandOf row' :: s.orders) :=
    ((Block.held_write found).append_left _).trans List.perm_middle
  have upper : (s.comms.write idx (commandOf row')).held 2 = s.comms.held 2 :=
    Block.held_write_outside (Block.getSubblock_some found).2 (lower_outside found)
  have order {command : SenderComm} (member : command ∈ s.sender.command ++
      (s.comms.write idx (commandOf row')).held 1) : command = commandOf row' ∨ command ∈ s.orders :=
    List.mem_cons.mp (lower.mem_iff.mp member)
  have status {cncsts : ConnectionStatus} (member : cncsts ∈ s.sender.report ++
      ((s.comms.write idx (commandOf row')).held 2).filterMap connectionOf) :
      cncsts ∈ s.statuses := by
    rwa [upper] at member
  have waits (cncsts : ConnectionStatus) (member : cncsts ∈ s.statuses) :
      cncsts.scommid ≠ row'.scommid := by
    intro same
    obtain ⟨-, sm, listed', equal, -, aim', kind⟩ := refines.reports cncsts member
    obtain rfl := refines.row listed' inside (equal.trans same)
    have other := kind.symm.trans mtype
    cases aim with
    | opens => cases other
    | closes fd => cases other
  have asked {command : Command Int Int} {scommid : Nat} (issued : command.stage = .issued)
      (other : v.command scommid = some command) : scommid ≠ row'.scommid := by
    rintro rfl
    rw [← Option.some.inj (present.symm.trans other)] at issued
    cases issued
  have keep {command : Command Int Int} {scommid : Nat} (other : scommid ≠ row'.scommid)
      (before : v.command scommid = some command) :
      (v.setCommand row'.scommid (some ⟨row'.mdata1, aim, .issued⟩)).command scommid =
        some command := Table.setCommand_some.mpr (.inr ⟨other, before⟩)
  obtain ⟨range, range'⟩ := refines.range row' inside
  have address := atoi_self range
  constructor
  · have same : (s.db.sUpdateComms row'.scommid).sendersComms.map SendersComm.scommid =
        s.db.sendersComms.map SendersComm.scommid := by
      rw [Db.sUpdateComms, List.map_map]
      apply List.map_congr_left
      intro sm _
      dsimp only [Function.comp]
      split
      · rfl
      · rfl
    exact same ▸ refines.scommids
  · intro sm member
    rcases after member with rfl | ⟨before, -⟩
    · exact refines.below row' inside
    · exact refines.below sm before
  · have perm : (commandOf row' :: s.orders).filterMap commandId =
        row'.scommid :: s.orders.filterMap commandId := by
      rw [List.filterMap_cons, commandId_commandOf]
    have whole := ((lower.filterMap commandId).trans (.of_eq perm)).append_right
      (s.statuses.map ConnectionStatus.scommid)
    have nodup : (row'.scommid :: s.tokens).Nodup := by
      refine List.nodup_cons.mpr ⟨fun member => ?_, refines.tokens⟩
      rcases List.mem_append.mp member with command | report
      · obtain ⟨command, old, same⟩ := List.mem_filterMap.mp command
        cases command with
        | openConn opncn => exact asked rfl (refines.opens opncn old) (Option.some.inj same)
        | closeConn clscn => exact asked rfl (refines.closes clscn old) (Option.some.inj same)
        | connection => cases same
        | message => cases same
      · obtain ⟨cncsts, old, same⟩ := List.mem_map.mp report
        exact waits cncsts old same
    simp only [State.tokens, State.orders, State.statuses, upper]
    exact whole.nodup_iff.mpr nodup
  · intro idx' row marks
    cases marks
  · exact refines.addresses
  · intro sm member
    rcases after member with rfl | ⟨before, -⟩
    · refine ⟨range, fun close => range' ?_⟩
      rw [mtype]
      rcases close with plain | marked
      · cases plain
      · exact .inl (MType.W.inj marked)
    · exact refines.range sm before
  · have wasOpen (marked : IsOpen (.W (kindOf aim))) : IsOpen row'.mtype := by
      rw [mtype]
      rcases marked with plain | marked
      · cases plain
      · exact .inl (MType.W.inj marked)
    intro sm member sm' member' kind kind' same
    rcases after member with rfl | ⟨before, -⟩
    · rcases after member' with rfl | ⟨before', -⟩
      · rfl
      · exact refines.alone row' inside sm' before' (wasOpen kind) kind' same
    · rcases after member' with rfl | ⟨before', -⟩
      · exact refines.alone sm before row' inside kind (wasOpen kind') same
      · exact refines.alone sm before sm' before' kind kind' same
  · intro scommid command member
    refine ⟨not_recorded rfl (fun _ _ same => by cases same) scommid, ?_⟩
    rcases Table.setCommand_some.mp member with ⟨rfl, new⟩ | ⟨other, before⟩
    · obtain rfl := Option.some.inj new
      exact ⟨_, now, rfl, ⟨rfl, rfl, fits.fd⟩⟩
    · obtain ⟨-, sm, present', rfl, fits'⟩ := refines.commands scommid command before
      exact ⟨sm, kept present' other, rfl, fits'⟩
  · intro sm member _
    rcases after member with rfl | ⟨before, other⟩
    · exact ⟨_, Table.setCommand_some.mpr (.inl ⟨rfl, rfl⟩)⟩
    · obtain ⟨command, old⟩ := refines.rows sm before (nothing _)
      exact ⟨command, keep other old⟩
  · intro opncn member
    rcases order member with new | old
    · cases aim with
      | opens =>
          have plain : row'.mtype = .openConn := mtype
          rw [commandOf, if_pos plain] at new
          obtain rfl := SenderComm.openConn.inj new
          exact Table.setCommand_some.mpr (.inl ⟨rfl, by rw [address]⟩)
      | closes fd =>
          rw [commandOf, if_neg (by simp [mtype, kindOf])] at new
          cases new
    · exact keep (asked rfl (refines.opens opncn old)) (refines.opens opncn old)
  · intro clscn member
    rcases order member with new | old
    · cases aim with
      | opens =>
          have plain : row'.mtype = .openConn := mtype
          rw [commandOf, if_pos plain] at new
          cases new
      | closes fd =>
          rw [commandOf, if_neg (by simp [mtype, kindOf])] at new
          obtain rfl := SenderComm.closeConn.inj new
          have descriptor := atoi_self (range' (.inl mtype))
          rw [fits.fd fd rfl] at descriptor
          exact Table.setCommand_some.mpr (.inl ⟨rfl, by rw [address, fits.fd fd rfl, descriptor]⟩)
    · exact keep (asked rfl (refines.closes clscn old)) (refines.closes clscn old)
  · intro cncsts member _
    obtain ⟨aim', before⟩ := refines.statuses cncsts (status member) (nothing _)
    exact ⟨aim', keep (waits cncsts (status member)) before⟩
  · intro cncsts member
    obtain ⟨small, sm, before, same, rest⟩ := refines.reports cncsts (status member)
    exact ⟨small, sm, kept before (same ▸ waits cncsts (status member)), same, rest⟩
  · intro scommid ipaddress aim' fd member
    rcases Table.setCommand_some.mp member with ⟨-, new⟩ | ⟨other, before⟩
    · cases new
    · obtain ⟨cncsts, old, rest⟩ := refines.reported scommid ipaddress aim' fd before
      exact ⟨cncsts, by simp only [State.statuses, upper]; exact old, rest⟩
  · exact refines.conns
  · exact refines.known
  · exact refines.sockets

theorem Refines.execute (refines : Refines s v) {command : SenderComm} {cncsts : ConnectionStatus}
    {aim : Aim Int} {sockets : Int → Option Socket} (place : s.sender = .executing command)
    (id : commandId command = some cncsts.scommid)
    (present : v.command cncsts.scommid = some ⟨cncsts.ipaddress, aim, .issued⟩)
    (range : IsInt4 cncsts.fd) (after : w.command = (v.setCommand cncsts.scommid
      (some ⟨cncsts.ipaddress, aim, .reported (resultOf cncsts)⟩)).command)
    (conn : w.conn = v.conn) (same : ∀ fd, sockets fd = (w.socket fd).map Socket.connected) :
    Refines { s with sockets := sockets, sender := .reporting cncsts } w := by
  have split : s.orders = command :: s.comms.held 1 := by rw [State.orders, place]; rfl
  have reported : s.statuses = (s.comms.held 2).filterMap connectionOf := by
    rw [State.statuses, place]; rfl
  have order {other : SenderComm} (member : other ∈ s.comms.held 1) : other ∈ s.orders := by
    rw [split]
    exact List.mem_cons_of_mem _ member
  have tokens : s.tokens = cncsts.scommid :: ((s.comms.held 1).filterMap commandId ++
      s.statuses.map ConnectionStatus.scommid) := by
    rw [State.tokens, split, List.filterMap_cons, id, List.cons_append]
  obtain ⟨apart, unique⟩ := List.nodup_cons.mp (tokens ▸ refines.tokens)
  have other {record : SenderComm} {scommid : Nat} (member : record ∈ s.comms.held 1)
      (equal : commandId record = some scommid) : scommid ≠ cncsts.scommid := by
    rintro rfl
    exact apart (List.mem_append_left _ (List.mem_filterMap.mpr ⟨record, member, equal⟩))
  have other' {report : ConnectionStatus} (member : report ∈ s.statuses) :
      report.scommid ≠ cncsts.scommid := by
    intro equal
    exact apart (List.mem_append_right _ (equal ▸ List.mem_map_of_mem member))
  have status {report : ConnectionStatus} (member : report ∈
      ({ s with sockets := sockets, sender := .reporting cncsts } : State).statuses) :
      report = cncsts ∨ report ∈ s.statuses := by
    rw [reported]
    exact List.mem_cons.mp member
  have keep {command : Command Int Int} {scommid : Nat} (differs : scommid ≠ cncsts.scommid)
      (before : v.command scommid = some command) : w.command scommid = some command := by
    rw [after]
    exact Table.setCommand_some.mpr (.inr ⟨differs, before⟩)
  obtain ⟨fresh, row, inside, equal, fits⟩ := refines.commands _ _ present
  constructor
  · exact refines.scommids
  · exact refines.below
  · have perm : ((s.comms.held 1).filterMap commandId ++
        (cncsts :: s.statuses).map ConnectionStatus.scommid).Perm
          (cncsts.scommid :: ((s.comms.held 1).filterMap commandId ++
            s.statuses.map ConnectionStatus.scommid)) := List.perm_middle
    have nodup := perm.nodup_iff.mpr (tokens ▸ refines.tokens)
    rw [reported] at nodup
    exact nodup
  · exact refines.marking
  · exact refines.addresses
  · exact refines.range
  · exact refines.alone
  · intro scommid command' member
    rw [after] at member
    rcases Table.setCommand_some.mp member with ⟨rfl, new⟩ | ⟨-, before⟩
    · obtain rfl := Option.some.inj new
      exact ⟨fresh, row, inside, equal, ⟨fits.address, fits.mtype, fits.fd⟩⟩
    · exact refines.commands scommid command' before
  · intro sm member clear
    by_cases mine : sm.scommid = cncsts.scommid
    · exact ⟨_, by rw [after]; exact Table.setCommand_some.mpr (.inl ⟨mine, rfl⟩)⟩
    · obtain ⟨command', before⟩ := refines.rows sm member clear
      exact ⟨command', keep mine before⟩
  · exact fun opncn member => keep (other member rfl) (refines.opens opncn (order member))
  · exact fun clscn member => keep (other member rfl) (refines.closes clscn (order member))
  · intro report member clear
    rcases status member with rfl | old
    · exact ⟨aim, by rw [after]; exact Table.setCommand_some.mpr (.inl ⟨rfl, rfl⟩)⟩
    · obtain ⟨aim', before⟩ := refines.statuses report old clear
      exact ⟨aim', keep (other' old) before⟩
  · intro report member
    rcases status member with rfl | old
    · exact ⟨range, row, inside, equal, fits.address.symm, aim, fits.mtype⟩
    · exact refines.reports report old
  · intro scommid ipaddress aim' fd member
    rw [after] at member
    rcases Table.setCommand_some.mp member with ⟨rfl, new⟩ | ⟨-, before⟩
    · obtain ⟨rfl, -, stage⟩ := Command.mk.inj (Option.some.inj new)
      have result := Stage.reported.inj stage
      unfold resultOf at result
      split at result
      · exact ⟨cncsts, List.mem_cons_self, rfl, rfl, Option.some.inj result⟩
      · cases result
    · obtain ⟨report, old, rest⟩ := refines.reported scommid ipaddress aim' fd before
      rw [reported] at old
      exact ⟨report, List.mem_cons_of_mem _ old, rest⟩
  · exact conn ▸ refines.conns
  · exact conn ▸ refines.known
  · exact same

section Pass

variable {db db' : Db}

theorem refines_registerConn (refines : Refines { s with db := db } v) (ipaddress : Int) :
    ∃ w, Relation.ReflTransGen Table.Turn v w ∧
      Refines { s with db := registerConn db ipaddress } w := by
  unfold registerConn
  split
  · exact ⟨v, .refl, refines⟩
  · next absent =>
      have other {sc : SendingConn} (member : sc ∈ db.sendingConns) : sc.sipaddr ≠ ipaddress :=
        fun same => absent (List.any_eq_true.mpr ⟨sc, member, by simpa using same⟩)
      have unknown : v.conn ipaddress = .unknown := by
        by_contra known
        obtain ⟨sc, member, same⟩ := refines.known ipaddress known
        exact other member same
      refine ⟨_, .single (.register unknown), ?_⟩
      constructor
      · exact refines.scommids
      · exact refines.below
      · exact refines.tokens
      · exact refines.marking
      · exact refines.addresses
      · exact refines.range
      · exact refines.alone
      · exact refines.commands
      · exact refines.rows
      · exact refines.opens
      · exact refines.closes
      · exact refines.statuses
      · exact refines.reports
      · exact refines.reported
      · intro sc member
        rcases List.mem_append.mp member with old | new
        · obtain ⟨conn, range⟩ := refines.conns sc old
          exact ⟨by simpa [Table.setConn, other old] using conn, range⟩
        · rw [List.mem_singleton.mp new]
          exact ⟨by simp [Table.setConn, connOf], fun connected => by cases connected⟩
      · intro address known
        by_cases same : address = ipaddress
        · exact ⟨_, List.mem_append_right _ (List.mem_singleton.mpr rfl), same.symm⟩
        · obtain ⟨sc, member, equal⟩ := refines.known address
            (by simpa [Table.setConn, same] using known)
          exact ⟨sc, List.mem_append_left _ member, equal⟩
      · exact refines.sockets

theorem refines_registerConns (refines : Refines { s with db := db } v) :
    ∃ w, Relation.ReflTransGen Table.Turn v w ∧ Refines { s with db := registerConns db } w := by
  unfold registerConns
  generalize ((db.sysinfo.filter (hasReadyJob db)).map SysInfo.ipaddress).dedup = addresses
  induction addresses generalizing db v with
  | nil => exact ⟨v, .refl, refines⟩
  | cons address rest ih =>
      obtain ⟨u, first, registered⟩ := refines_registerConn refines address
      obtain ⟨w, later, last⟩ := ih registered
      exact ⟨w, first.trans later, last⟩

theorem Refines.recorded_below (refines : Refines { s with db := db } v) (shape : Shape s)
    {scommid : Nat} (recorded : Recorded s scommid) : scommid < db.scommidSeq := by
  obtain ⟨idx, place⟩ := recorded
  obtain ⟨found, cncsts, holds, rfl⟩ := shape.deleting idx scommid place
  obtain ⟨-, sm, member, same, -⟩ := refines.reports cncsts (mem_statuses found holds)
  exact same ▸ refines.below sm member

theorem refines_ask (refines : Refines { s with db := db } v) (shape : Shape s) {ipaddress mdata2 : Int}
    {aim : Aim Int} (conn : v.conn ipaddress = aim.conn) (range : IsInt4 ipaddress)
    (fd : ∀ fd, aim = .closes fd → mdata2 = fd ∧ IsInt4 fd) (idle : v.Idle ipaddress)
    (alone : aim = .opens → ∀ sm ∈ db.sendersComms, IsOpen sm.mtype → sm.mdata1 ≠ ipaddress)
    (comms : db'.sendersComms = db.sendersComms ++ [⟨db.scommidSeq, ipaddress, mdata2, kindOf aim⟩])
    (sequence : db'.scommidSeq = db.scommidSeq + 1) (conns : db'.sendingConns = db.sendingConns)
    (sysinfo : db'.sysinfo = db.sysinfo) :
    v.Turn (v.setCommand db.scommidSeq (some ⟨ipaddress, aim, .asked⟩)) ∧
      Refines { s with db := db' } (v.setCommand db.scommidSeq (some ⟨ipaddress, aim, .asked⟩)) := by
  have unused : v.command db.scommidSeq = none := by
    by_contra used
    obtain ⟨command, present⟩ := Option.ne_none_iff_exists'.mp used
    obtain ⟨-, sm, member, same, -⟩ := refines.commands _ _ present
    have low := refines.below sm member
    rw [same] at low
    exact lt_irrefl _ low
  have split {sm : SendersComm} (member : sm ∈ db'.sendersComms) : sm ∈ db.sendersComms ∨
      sm = ⟨db.scommidSeq, ipaddress, mdata2, kindOf aim⟩ := by
    rw [comms] at member
    exact (List.mem_append.mp member).imp_right List.mem_singleton.mp
  have keep {sm : SendersComm} (member : sm ∈ db.sendersComms) : sm ∈ db'.sendersComms := by
    rw [comms]
    exact List.mem_append_left _ member
  have new : ⟨db.scommidSeq, ipaddress, mdata2, kindOf aim⟩ ∈ db'.sendersComms := by
    rw [comms]
    exact List.mem_append_right _ (List.mem_singleton.mpr rfl)
  have kept {scommid : Nat} {command : Command Int Int} (before : v.command scommid = some command) :
      (v.setCommand db.scommidSeq (some ⟨ipaddress, aim, .asked⟩)).command scommid = some command := by
    refine Table.setCommand_some.mpr (.inr ⟨?_, before⟩)
    rintro rfl
    cases unused.symm.trans before
  have opening {aim : Aim Int} (kind : IsOpen (kindOf aim)) : aim = .opens := by
    cases aim with
    | opens => rfl
    | closes fd => exact absurd kind (by simp only [kindOf]; decide)
  refine ⟨.ask unused conn idle, ?_⟩
  constructor
  · rw [comms, List.map_append, List.nodup_append]
    refine ⟨refines.scommids, List.nodup_singleton _, ?_⟩
    rintro scommid member other single rfl
    obtain ⟨sm, inside, same⟩ := List.mem_map.mp member
    have low := refines.below sm inside
    rw [same, List.mem_singleton.mp single] at low
    exact lt_irrefl _ low
  · intro sm member
    rw [sequence]
    rcases split member with old | rfl
    · exact (refines.below sm old).trans (Nat.lt_succ_self _)
    · exact Nat.lt_succ_self _
  · exact refines.tokens
  · intro idx row place
    obtain ⟨inside, test⟩ := List.mem_filter.mp (refines.marking idx row place)
    exact List.mem_filter.mpr ⟨keep inside, test⟩
  · exact sysinfo ▸ refines.addresses
  · intro sm member
    rcases split member with old | rfl
    · exact refines.range sm old
    · refine ⟨range, fun close => ?_⟩
      cases aim with
      | opens => exact absurd close (by simp only [kindOf]; decide)
      | closes fd' => exact (fd fd' rfl).1 ▸ (fd fd' rfl).2
  · intro sm member sm' member' kind kind' same
    rcases split member with old | rfl
    · rcases split member' with old' | rfl
      · exact refines.alone sm old sm' old' kind kind' same
      · exact absurd same (alone (opening kind') sm old kind)
    · rcases split member' with old' | rfl
      · exact absurd same.symm (alone (opening kind) sm' old' kind')
      · rfl
  · intro scommid command member
    rcases Table.setCommand_some.mp member with ⟨rfl, now⟩ | ⟨-, before⟩
    · obtain rfl := Option.some.inj now
      refine ⟨?_, _, new, rfl, ⟨rfl, rfl, fun fd' closes => (fd fd' closes).1⟩⟩
      exact fun recorded => lt_irrefl _ (refines.recorded_below shape recorded)
    · obtain ⟨fresh, sm, inside, rest⟩ := refines.commands scommid command before
      exact ⟨fresh, sm, keep inside, rest⟩
  · intro sm member fresh
    rcases split member with old | rfl
    · obtain ⟨command, before⟩ := refines.rows sm old fresh
      exact ⟨command, kept before⟩
    · exact ⟨_, Table.setCommand_some.mpr (.inl ⟨rfl, rfl⟩)⟩
  · exact fun opncn member => kept (refines.opens opncn member)
  · exact fun clscn member => kept (refines.closes clscn member)
  · intro cncsts member fresh
    obtain ⟨aim', before⟩ := refines.statuses cncsts member fresh
    exact ⟨aim', kept before⟩
  · intro cncsts member
    obtain ⟨small, sm, inside, rest⟩ := refines.reports cncsts member
    exact ⟨small, sm, keep inside, rest⟩
  · intro scommid address aim' fd' member
    rcases Table.setCommand_some.mp member with ⟨-, now⟩ | ⟨-, before⟩
    · cases now
    · exact refines.reported scommid address aim' fd' before
  · exact conns ▸ refines.conns
  · exact conns ▸ refines.known
  · exact refines.sockets

def Asked (s : State) (v : Table Nat Int Int) (db : Db) : Prop :=
  ∃ w, Relation.ReflTransGen Table.Turn v w ∧ w.Owned ∧ w.conn = v.conn ∧
    Refines { s with db := db } w

theorem Asked.insertComm (asked : Asked s v db) (shape : Shape s) (aim : Aim Int)
    {row : Int × Option Int} (conn : v.conn row.1 = aim.conn) (range : IsInt4 row.1)
    (fd : ∀ fd, aim = .closes fd → row.2 = some fd ∧ IsInt4 fd)
    (ports : aim = .opens → ∀ sm ∈ db.sendersComms, IsOpen sm.mtype → sm.mdata1 = row.1 →
      row.2 = some sm.mdata2) (done : RunJobs.insertComm (kindOf aim) db row = .ok db') :
    Asked s v db' := by
  obtain ⟨w, turns, owned, same, refines⟩ := asked
  obtain ⟨only, conns⟩ := onlyConns_insertComm done
  rcases insertComm_ok done with ⟨comms, sequence⟩ | ⟨mdata2, known, absent, comms, sequence⟩
  · refine ⟨w, turns, owned, same, refines.quiet ?_⟩
    constructor
    · exact comms
    · exact sequence
    · exact conns
    · exact fun nodup => only.sysinfo ▸ nodup
    · exact ⟨[], .refl _⟩
    · exact .refl _
    · rfl
    · exact fun _ => Iff.rfl
    · exact fun _ _ place => .inl place
  · -- a command for the address would have the same row
    have idle : w.Idle row.1 := by
      intro scommid command present address
      obtain ⟨-, sm, inside, -, fits⟩ := refines.commands scommid command present
      have aims := owned.agree scommid command present
      rw [address, same, conn] at aims
      have equal := Aim.conn_injective aims
      have data : sm.mdata1 = row.1 := fits.address.symm.trans address
      refine absent sm inside ⟨data, ?_⟩
      cases aim with
      | opens =>
          have kind : IsOpen sm.mtype := by
            rw [fits.mtype, ← equal]
            cases command.stage with
            | asked => exact .inl rfl
            | _ => exact .inr rfl
          exact Option.some.inj ((ports rfl sm inside kind data).symm.trans known)
      | closes fd' =>
          rw [fits.fd fd' equal.symm]
          exact Option.some.inj ((fd fd' rfl).1.symm.trans known)
    have apart (opens : aim = .opens) : ∀ sm ∈ db.sendersComms, IsOpen sm.mtype →
        sm.mdata1 ≠ row.1 := by
      intro sm inside kind data
      have port := (ports opens sm inside kind data).symm.trans known
      exact absent sm inside ⟨data, Option.some.inj port⟩
    have value (fd' : Int) (closes : aim = .closes fd') : mdata2 = fd' ∧ IsInt4 fd' :=
      ⟨Option.some.inj (known.symm.trans (fd fd' closes).1), (fd fd' closes).2⟩
    obtain ⟨turn, after⟩ := refines_ask refines shape (by rw [same, conn]) range value idle apart
      comms sequence conns only.sysinfo
    exact ⟨_, turns.tail turn, owned.turn turn, same, after⟩

theorem refines_openConns (asked : Asked s v db) (shape : Shape s) {rows : List (Int × Option Int)}
    (unique : ∀ row ∈ rows, ∀ row' ∈ rows, row.1 = row'.1 → row = row')
    (closed : ∀ row ∈ rows, IsInt4 row.1 ∧ v.conn row.1 = .closed)
    (ports : ∀ row ∈ rows, ∀ sm ∈ db.sendersComms, IsOpen sm.mtype → sm.mdata1 = row.1 →
      row.2 = some sm.mdata2) (done : rows.foldlM (RunJobs.insertComm .openConn) db = .ok db') :
    Asked s v db' := by
  refine (foldlM_keeps (fun u => Asked s v u ∧ ∀ row ∈ rows, ∀ sm ∈ u.sendersComms,
    IsOpen sm.mtype → sm.mdata1 = row.1 → row.2 = some sm.mdata2)
    (fun u row u' member kept moved => ?_) ⟨asked, ports⟩ done).1
  obtain ⟨asked', ports'⟩ := kept
  obtain ⟨range, shut⟩ := closed row member
  constructor
  · exact asked'.insertComm shape .opens shut range nofun (fun _ => ports' row member) moved
  · rcases insertComm_ok moved with ⟨same, -⟩ | ⟨mdata2, known, -, comms, -⟩
    · exact same ▸ ports'
    · intro row' member' sm inside kind address
      rw [comms] at inside
      rcases List.mem_append.mp inside with old | new
      · exact ports' row' member' sm old kind address
      · obtain rfl := List.mem_singleton.mp new
        exact unique row member row' member' address ▸ known

theorem refines_closeConns (asked : Asked s v db) (shape : Shape s) {rows : List (Int × Option Int)}
    (opened : ∀ row ∈ rows, ∃ fd, row.2 = some fd ∧ v.conn row.1 = .opened fd ∧ IsInt4 row.1 ∧
      IsInt4 fd) (done : rows.foldlM (RunJobs.insertComm .closeConn) db = .ok db') :
    Asked s v db' := by
  refine foldlM_keeps (Asked s v) (fun u row u' member kept moved => ?_) asked done
  obtain ⟨fd, known, conn, range, range'⟩ := opened row member
  refine kept.insertComm shape (.closes fd) conn range ?_ nofun moved
  intro fd' same
  obtain rfl := Aim.closes.inj same
  exact ⟨known, range'⟩

theorem refines_pass (refines : Refines s v) (owned : v.Owned) (shape : Shape s) {env : Env} {u : Db}
    (before : beforeConns env s.db = .ok u) (managed : manageConns u = .ok db)
    (same : SamePort env s.db) :
    ∃ w, Relation.ReflTransGen Table.Turn v w ∧ Refines { s with db := db } w := by
  obtain ⟨conns, systems⟩ := beforeConns_ok before
  have first : Refines { s with db := u } v := by
    apply refines.quiet
    apply Quiet.relocate _ _ conns systems
    · exact ⟨[], .refl _⟩
    · exact .refl _
    · exact .inl rfl
  obtain ⟨w, turns, registered⟩ := refines_registerConns first
  unfold SamePort at same
  rw [before] at same
  unfold manageConns openConns closeConns at managed
  obtain ⟨u', opened, closed⟩ := bind_ok.mp managed
  have table : (registerConns u).sendersComms = u.sendersComms := (registerConns_ok u).1
  have second : Asked s w u' := by
    refine refines_openConns ⟨w, .refl, owned.turns turns, rfl, registered⟩ shape ?_ ?_ ?_ opened
    · intro row member row' member' equal
      obtain ⟨si, inside, rfl⟩ := List.mem_map.mp member
      obtain ⟨si', inside', rfl⟩ := List.mem_map.mp member'
      rw [List.inj_on_of_nodup_map registered.addresses (List.mem_filter.mp inside).1
        (List.mem_filter.mp inside').1 equal]
    · intro row member
      obtain ⟨positive, small⟩ := (same row member).1
      refine ⟨⟨le_trans (by decide) positive, small⟩, ?_⟩
      obtain ⟨si, inside, rfl⟩ := List.mem_map.mp member
      have test := (List.mem_filter.mp inside).2
      simp only [Bool.and_eq_true, List.any_eq_true, decide_eq_true_eq] at test
      obtain ⟨-, sc, listed, address, status⟩ := test
      have conn := (registered.conns sc listed).1
      rw [← address] at conn
      rw [conn, connOf, if_neg (by rw [status]; decide)]
    · intro row member
      rw [table]
      exact (same row member).2
  obtain ⟨w', turns', owned', conn, refined⟩ := second
  have rows : ∀ row ∈ closeRows u', ∃ fd, row.2 = some fd ∧ w'.conn row.1 = .opened fd ∧
      IsInt4 row.1 ∧ IsInt4 fd := by
    intro row member
    obtain ⟨sc, inside, status, rfl, -⟩ := mem_closeRows member
    obtain ⟨known, range⟩ := refined.conns sc inside
    refine ⟨sc.sfd, rfl, ?_, range status⟩
    rw [known, connOf, if_pos status]
  obtain ⟨w'', turns'', -, -, last⟩ :=
    refines_closeConns ⟨w', .refl, owned', rfl, refined⟩ shape rows closed
  exact ⟨w'', (turns.trans turns').trans turns'', last⟩

end Pass

/-- A steady step is some turns of the table of commands. -/
theorem refines_step {a : Action} (refines : Refines s v) (owned : v.Owned) (shape : Shape s)
    (steady : Steady s a) (moves : Moves s a t) :
    ∃ w, Relation.ReflTransGen Table.Turn v w ∧ Refines t w := by
  cases traffic shape moves with
  | quiet quiet => exact ⟨v, .refl, refines.quiet quiet⟩
  | record place found holds =>
      obtain ⟨w, turn, after⟩ := refines_record refines owned place found holds
      exact ⟨w, .single turn, after⟩
  | delete place found holds => exact ⟨v, .refl, refines_delete refines place found holds⟩
  | hand place found =>
      obtain ⟨w, turn, after⟩ := refines_hand refines place found
      exact ⟨w, .single turn, after⟩
  | refuse place =>
      rename_i opncn established
      have order : .openConn opncn ∈ s.orders := by
        rw [State.orders, place]
        exact List.mem_cons_self
      have present := refines.opens opncn order
      exact ⟨_, .single (.refuse present),
        refines.execute place rfl present (by decide : IsInt4 (-1)) rfl rfl refines.sockets⟩
  | connect place low high unused =>
      rename_i opncn fd
      have order : .openConn opncn ∈ s.orders := by
        rw [State.orders, place]
        exact List.mem_cons_self
      have present := refines.opens opncn order
      have free : v.socket fd = none := by
        rw [refines.sockets] at unused
        exact Option.map_eq_none_iff.mp unused
      have result : resultOf ⟨fd, opncn.ipaddress, opncn.scommid⟩ = some fd := if_pos low
      refine ⟨_, .single (.connect present free), ?_⟩
      refine refines.execute place rfl present ⟨(by decide : int4Min ≤ 0).trans low, high⟩ ?_ rfl ?_
      · rw [result]
        rfl
      · intro fd'
        by_cases same : fd' = fd
        · simp [Table.setSocket, same]
        · simpa [Table.setSocket, Table.setCommand, same] using refines.sockets fd'
  | leak => exact absurd (steady rfl) (by decide)
  | close place =>
      rename_i clscn
      have order : .closeConn clscn ∈ s.orders := by
        rw [State.orders, place]
        exact List.mem_cons_self
      have present := refines.closes clscn order
      refine ⟨_, .single (.close present), ?_⟩
      refine refines.execute place rfl present (by decide : IsInt4 (-1)) rfl rfl ?_
      intro fd'
      by_cases same : fd' = clscn.fd
      · simp [Table.setSocket, same]
      · simpa [Table.setSocket, Table.setCommand, same] using refines.sockets fd'
  | drop full =>
      obtain ⟨k, inside, free⟩ := steady
      rw [Block.getSubblock_none.mp full k inside] at free
      cases free
  | pass before managed => exact refines_pass refines owned shape before managed steady

def noCommands : Table Nat Int Int := ⟨fun _ => none, fun _ => .unknown, fun _ => none⟩

theorem owned_noCommands : noCommands.Owned :=
  ⟨nofun, nofun, nofun, nofun⟩

theorem refines_initial {db : Db} (comms : db.sendersComms = []) (conns : db.sendingConns = [])
    (addresses : (db.sysinfo.map SysInfo.ipaddress).Nodup) (sigs : Nat) :
    Refines (initial db sigs) noCommands := by
  have noRow {sm : SendersComm} (member : sm ∈ (initial db sigs).db.sendersComms) : False := by
    rw [show (initial db sigs).db.sendersComms = [] from comms] at member
    cases member
  have orders : (initial db sigs).orders = [] := by
    simp [State.orders, initial, Sender.command, Block.held_empty]
  have statuses : (initial db sigs).statuses = [] := by
    simp [State.statuses, initial, Sender.report, Block.held_empty]
  constructor
  · rw [show (initial db sigs).db.sendersComms = [] from comms]
    exact List.nodup_nil
  · exact fun sm member => (noRow member).elim
  · rw [State.tokens, orders, statuses]
    exact List.nodup_nil
  · intro idx row place
    cases place
  · exact addresses
  · exact fun sm member => (noRow member).elim
  · exact fun sm member => (noRow member).elim
  · intro scommid command present
    cases present
  · exact fun sm member => (noRow member).elim
  · simp [orders]
  · simp [orders]
  · simp [statuses]
  · simp [statuses]
  · intro scommid ipaddress aim fd present
    cases present
  · intro sc member
    rw [show (initial db sigs).db.sendingConns = [] from conns] at member
    cases member
  · exact fun _ known => absurd rfl known
  · exact fun _ => rfl

end Refines

/-- In a steady run there is never more than one open command or one socket for an address,
and no socket is forgotten. -/
theorem single_of_steady {db : Db} {sigs : Nat} {actions : List Action} {s : State}
    (comms : db.sendersComms = []) (conns : db.sendingConns = [])
    (addresses : (db.sysinfo.map SysInfo.ipaddress).Nodup)
    (done : run step (initial db sigs) actions = some s)
    (steady : Guarded step Steady (initial db sigs) actions) : Single s := by
  have start : Shape (initial db sigs) ∧ ∃ v, v.Owned ∧ Refines (initial db sigs) v :=
    ⟨shape_initial db sigs, noCommands, owned_noCommands, refines_initial comms conns addresses sigs⟩
  have keeps (s : State) (a : Action) (t : State) (kept : Shape s ∧ ∃ v, v.Owned ∧ Refines s v)
      (allowed : Steady s a) (moved : step s a = some t) :
      Shape t ∧ ∃ v, v.Owned ∧ Refines t v := by
    obtain ⟨shape, v, owned, refines⟩ := kept
    have moves := step_moves moved
    obtain ⟨w, turns, after⟩ := refines_step refines owned shape allowed moves
    exact ⟨shape_step shape moves, w, owned.turns turns, after⟩
  obtain ⟨-, v, owned, refines⟩ := guarded_run_keeps keeps start steady done
  exact refines.single owned

theorem single_first_file :
    ∃ s, run step (initial knownDb 0) firstFile = some s ∧ Single s := by
  have runs : (run step (initial knownDb 0) firstFile).isSome = true := by decide +kernel
  have steady : Guarded step Steady (initial knownDb 0) firstFile := by decide +kernel
  obtain ⟨s, done⟩ := Option.isSome_iff_exists.mp runs
  exact ⟨s, done, single_of_steady rfl rfl (by decide +kernel) done steady⟩

def movedRequest : Bytea :=
  ((consensusJob sampleEnv (Uuid.ofNat 50) (ascii "4") 180 ⟨ascii "   M1", 16843009, 6102, 180⟩
    (ascii "   M3") (Uuid.ofNat 0)).toOption.map Job.jobdata).getD []

/-- The port of M1 changes before the command to open its connection is read; then both
commands are executed. -/
def movedPort : List Action :=
  [sendFileAs 1, passFrom 100, .database (.storeData (Uuid.ofNat 2) 4 movedRequest), passFrom 200,
    .signal, .waitSigps, .readMsg, .sendMsg 0, .updateComms, .giveData 0,
    .waitSigs, .getMessage, .connect (some 5) true, .reportConnection, .getData,
    .waitSigps, .readMsg, .deleteComms, .sendMsg 0, .updateComms, .giveData 0,
    .waitSigs, .getMessage, .connect (some 6) true, .reportConnection, .getData,
    .waitSigps, .readMsg, .deleteComms]

/-- Two sockets to M1 are open, and `sending_conns` has the second. -/
theorem moved_port_opens_twice :
    ∃ s, run step (initial knownDb 0) movedPort = some s ∧
      s.sockets 5 = some (.connected 16843009) ∧ s.sockets 6 = some (.connected 16843009) ∧
      s.db.sendingConns = [⟨6, 16843009, 2⟩] ∧ ¬ Single s := by
  have ends : (run step (initial knownDb 0) movedPort).map (fun s =>
      (s.sockets 5, s.sockets 6, s.db.sendingConns)) = some (some (.connected 16843009),
        some (.connected 16843009), [⟨6, 16843009, 2⟩]) := by decide +kernel
  obtain ⟨s, done, same⟩ := Option.map_eq_some_iff.mp ends
  simp only [Prod.mk.injEq] at same
  obtain ⟨first, second, conns⟩ := same
  refine ⟨s, done, first, second, conns, fun single => ?_⟩
  have equal := single.sockets 5 6 16843009 first second
  exact absurd equal (by decide)

end SenderSide

end FileSharing
