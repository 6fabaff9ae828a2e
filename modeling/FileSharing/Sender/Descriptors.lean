import FileSharing.Sender.Connections

/-! The descriptors that `sender` uses: when each job is sent on a socket that is open and
connected to its destination. -/

namespace FileSharing

open Library RunJobs

namespace SenderSide

def IsClose (mtype : MType) : Prop := mtype = .closeConn ∨ mtype = .W .closeConn

instance (mtype : MType) : Decidable (IsClose mtype) := inferInstanceAs (Decidable (_ ∨ _))

/-- A row of `senders_comms` is to close this connection. -/
def Closing (db : Db) (ipaddress fd : Int) : Prop :=
  ∃ sm ∈ db.sendersComms, IsClose sm.mtype ∧ sm.mdata1 = ipaddress ∧ sm.mdata2 = fd

instance (db : Db) (ipaddress fd : Int) : Decidable (Closing db ipaddress fd) :=
  inferInstanceAs (Decidable (∃ _ ∈ _, _))

/-- `processor_s` hands a job over only while no row is to close its connection. -/
def NotClosing (s : State) (a : Action) : Prop :=
  ∀ choice sc js, a = .giveData choice → firstInfo s.db choice = some (some (sc, js)) →
    ¬ Closing s.db sc.sipaddr sc.sfd

theorem notClosing_giveData {s : State} {choice : Nat} : NotClosing s (.giveData choice) ↔
    ∀ sc js, firstInfo s.db choice = some (some (sc, js)) → ¬ Closing s.db sc.sipaddr sc.sfd := by
  constructor
  · exact fun guard sc js => guard choice sc js rfl
  · rintro each _ sc js ⟨⟩
    exact each sc js

instance (s : State) (a : Action) : Decidable (NotClosing s a) :=
  match a with
  | .giveData choice =>
      match first : firstInfo s.db choice with
      | some (some (sc, js)) =>
          decidable_of_iff (¬ Closing s.db sc.sipaddr sc.sfd) (by simp [notClosing_giveData, first])
      | some none => .isTrue (by simp [notClosing_giveData, first])
      | none => .isTrue (by simp [notClosing_giveData, first])
  | .signal => .isTrue nofun
  | .waitSigps => .isTrue nofun
  | .readMsg => .isTrue nofun
  | .deleteComms => .isTrue nofun
  | .sendMsg _ => .isTrue nofun
  | .updateComms => .isTrue nofun
  | .waitSigs => .isTrue nofun
  | .getMessage => .isTrue nofun
  | .connect _ _ => .isTrue nofun
  | .close => .isTrue nofun
  | .reportConnection => .isTrue nofun
  | .getData => .isTrue nofun
  | .send _ => .isTrue nofun
  | .reportMessage => .isTrue nofun
  | .database _ => .isTrue nofun

def Sender.command : Sender → List SenderComm
  | .executing command => [command]
  | _ => []

def Sender.report : Sender → List ConnectionStatus
  | .reporting cncsts => [cncsts]
  | _ => []

def Sender.message : Sender → List SendMessage
  | .sending sndmsg _ => [sndmsg]
  | _ => []

def connectionOf : SenderComm → Option ConnectionStatus
  | .connection cncsts => some cncsts
  | _ => none

def commandId : SenderComm → Option Nat
  | .openConn opncn => some opncn.scommid
  | .closeConn clscn => some clscn.scommid
  | _ => none

def State.orders (s : State) : List SenderComm := s.sender.command ++ s.comms.held 1

def State.statuses (s : State) : List ConnectionStatus :=
  s.sender.report ++ (s.comms.held 2).filterMap connectionOf

def State.messages (s : State) : List SendMessage := s.sender.message ++ s.datas.held 3

def State.tokens (s : State) : List Nat :=
  s.orders.filterMap commandId ++ s.statuses.map ConnectionStatus.scommid

def Recorded (s : State) (scommid : Nat) : Prop := ∃ idx, s.processorS = .deleting idx scommid

def Live (s : State) (ipaddress fd : Int) : Prop :=
  (∃ sm ∈ s.db.sendersComms, sm.mtype = .closeConn ∧ sm.mdata1 = ipaddress ∧ sm.mdata2 = fd) ∨
  ∃ scommid, .closeConn ⟨fd, ipaddress, scommid⟩ ∈ s.orders

structure Pending (s : State) (cncsts : ConnectionStatus) : Prop where
  range : IsInt4 cncsts.fd ∧ IsInt4 cncsts.ipaddress
  socket : s.sockets cncsts.fd = some (.connected cncsts.ipaddress)
  live : ∀ ipaddress, ¬ Live s ipaddress cncsts.fd
  stale : ∀ sc ∈ s.db.sendingConns, sc.scstatus = 2 → sc.sfd = cncsts.fd →
    Closing s.db sc.sipaddr sc.sfd

/-- The descriptor of a message is a socket that is connected to the destination of its job. -/
def Connected (s : State) (sndmsg : SendMessage) : Prop :=
  ∃ si ∈ s.db.sysinfo, (sndmsg.uuid, si.systemName) ∈ waitingJobs s.db ∧
    s.sockets sndmsg.fd = some (.connected si.ipaddress)

/-- How the commands, the statuses and the jobs on their way fit the tables and the sockets. -/
structure Links (s : State) : Prop where
  scommids : (s.db.sendersComms.map SendersComm.scommid).Nodup
  below : ∀ sm ∈ s.db.sendersComms, sm.scommid < s.db.scommidSeq
  pairs : (s.db.sendersComms.map fun sm => (sm.mdata1, sm.mdata2)).Nodup
  range : ∀ sm ∈ s.db.sendersComms, IsClose sm.mtype → IsInt4 sm.mdata1 ∧ IsInt4 sm.mdata2
  tokens : s.tokens.Nodup
  opens : ∀ opncn, .openConn opncn ∈ s.orders → IsInt4 opncn.ipaddress ∧
    ∃ sm ∈ s.db.sendersComms, sm.scommid = opncn.scommid ∧ sm.mtype = .W .openConn
  closes : ∀ clscn, .closeConn clscn ∈ s.orders → ∃ sm ∈ s.db.sendersComms,
    sm.scommid = clscn.scommid ∧ sm.mtype = .W .closeConn ∧ sm.mdata1 = clscn.ipaddress ∧
      sm.mdata2 = clscn.fd
  reports : ∀ cncsts ∈ s.statuses, ∃ sm ∈ s.db.sendersComms, sm.scommid = cncsts.scommid ∧
    (sm.mtype = .W .openConn ∨
      sm.mtype = .W .closeConn ∧ cncsts.fd = -1 ∧ sm.mdata1 = cncsts.ipaddress)
  marking : ∀ idx row, s.processorS = .marking idx row → row ∈ commands s.db
  deleting : ∀ idx scommid, s.processorS = .deleting idx scommid → ∀ sm ∈ s.db.sendersComms,
    sm.scommid = scommid → sm.mtype = .W .closeConn →
      ∀ sc ∈ s.db.sendingConns, sc.sipaddr = sm.mdata1 → sc.scstatus ≠ 2
  live : ∀ ipaddress fd, Live s ipaddress fd → s.sockets fd = some (.connected ipaddress)
  conns : ∀ sc ∈ s.db.sendingConns, sc.scstatus = 2 → (IsInt4 sc.sipaddr ∧ IsInt4 sc.sfd) ∧
    (Closing s.db sc.sipaddr sc.sfd ∨ s.sockets sc.sfd = some (.connected sc.sipaddr))
  pending : ∀ cncsts ∈ s.statuses, ¬ Recorded s cncsts.scommid → 0 ≤ cncsts.fd → Pending s cncsts
  apart : ∀ first ∈ s.statuses, ∀ second ∈ s.statuses, ¬ Recorded s first.scommid →
    ¬ Recorded s second.scommid → 0 ≤ first.fd → first.fd = second.fd →
      first.scommid = second.scommid
  messages : ∀ sndmsg ∈ s.messages, Connected s sndmsg ∧ ∀ ipaddress, ¬ Live s ipaddress sndmsg.fd
  addresses : (s.db.sysinfo.map SysInfo.ipaddress).Nodup

theorem Links.closing_of_live {s : State} (links : Links s) {ipaddress fd : Int}
    (live : Live s ipaddress fd) : Closing s.db ipaddress fd := by
  rcases live with ⟨sm, inside, mtype, same⟩ | ⟨scommid, order⟩
  · exact ⟨sm, inside, .inl mtype, same⟩
  · obtain ⟨sm, inside, -, mtype, same⟩ := links.closes _ order
    exact ⟨sm, inside, .inr mtype, same⟩

section Steps

variable {s t : State} {db db' : Db}

theorem Links.shrink (links : Links s) (database : t.db = s.db) (sockets : t.sockets = s.sockets)
    (orders : ∀ command ∈ t.orders, command ∈ s.orders)
    (statuses : ∀ cncsts ∈ t.statuses, cncsts ∈ s.statuses)
    (messages : ∀ sndmsg ∈ t.messages, Connected s sndmsg ∧ ∀ ipaddress, ¬ Live s ipaddress sndmsg.fd)
    (tokens : ∃ gone, (gone ++ t.tokens).Perm s.tokens)
    (recorded : ∀ cncsts ∈ t.statuses, Recorded s cncsts.scommid → Recorded t cncsts.scommid)
    (marking : ∀ idx row, t.processorS = .marking idx row → row ∈ commands s.db)
    (deleting : ∀ idx scommid, t.processorS = .deleting idx scommid →
      s.processorS = .deleting idx scommid) : Links t := by
  have lives (ipaddress fd : Int) (live : Live t ipaddress fd) : Live s ipaddress fd := by
    rcases live with row | ⟨scommid, order⟩
    · exact .inl (database ▸ row)
    · exact .inr ⟨scommid, orders _ order⟩
  constructor
  · exact database ▸ links.scommids
  · exact database ▸ links.below
  · exact database ▸ links.pairs
  · exact database ▸ links.range
  · obtain ⟨gone, perm⟩ := tokens
    exact (List.nodup_append.mp (perm.nodup_iff.mpr links.tokens)).2.1
  · exact fun opncn member => database ▸ links.opens opncn (orders _ member)
  · exact fun clscn member => database ▸ links.closes clscn (orders _ member)
  · exact fun cncsts member => database ▸ links.reports cncsts (statuses _ member)
  · exact fun idx row place => database ▸ marking idx row place
  · exact fun idx scommid place => database ▸ links.deleting idx scommid (deleting _ _ place)
  · exact fun ipaddress fd live => sockets ▸ links.live ipaddress fd (lives _ _ live)
  · rw [database, sockets]
    exact links.conns
  · intro cncsts member fresh opened
    have old := links.pending cncsts (statuses _ member)
      (fun before => fresh (recorded cncsts member before)) opened
    exact ⟨old.range, sockets ▸ old.socket, fun ipaddress live => old.live _ (lives _ _ live),
      database ▸ old.stale⟩
  · intro first inside second other fresh fresh'
    exact links.apart first (statuses _ inside) second (statuses _ other)
      (fun before => fresh (recorded first inside before))
      (fun before => fresh' (recorded second other before))
  · intro sndmsg member
    obtain ⟨⟨si, present, waits, socket⟩, live⟩ := messages sndmsg member
    exact ⟨⟨si, database ▸ present, database ▸ waits, sockets ▸ socket⟩,
      fun ipaddress later => live ipaddress (lives _ _ later)⟩
  · exact database ▸ links.addresses

theorem Links.database (links : Links s) (comms : db.sendersComms = s.db.sendersComms)
    (sequence : s.db.scommidSeq ≤ db.scommidSeq)
    (conns : ∀ sc ∈ db.sendingConns, sc.scstatus = 2 → sc ∈ s.db.sendingConns)
    (known : Known s.db db) (waiting : ∀ sndmsg ∈ s.messages, ∀ destination,
      (sndmsg.uuid, destination) ∈ waitingJobs s.db →
      (sndmsg.uuid, destination) ∈ waitingJobs db) : Links { s with db := db } := by
  have closing (ipaddress fd : Int) : Closing db ipaddress fd = Closing s.db ipaddress fd := by
    rw [Closing, comms, Closing]
  have lives (ipaddress fd : Int) (live : Live { s with db := db } ipaddress fd) :
      Live s ipaddress fd := by
    rcases live with row | order
    · exact .inl (comms ▸ row)
    · exact .inr order
  constructor
  · exact comms ▸ links.scommids
  · exact comms ▸ fun sm member => (links.below sm member).trans_le sequence
  · exact comms ▸ links.pairs
  · exact comms ▸ links.range
  · exact links.tokens
  · exact fun opncn member => comms ▸ links.opens opncn member
  · exact fun clscn member => comms ▸ links.closes clscn member
  · exact fun cncsts member => comms ▸ links.reports cncsts member
  · intro idx row place
    have listed := links.marking idx row place
    unfold commands at listed ⊢
    exact comms ▸ listed
  · intro idx scommid place sm member same mtype sc inside address opened
    exact links.deleting idx scommid place sm (comms ▸ member) same mtype sc
      (conns sc inside opened) address opened
  · exact fun ipaddress fd live => links.live ipaddress fd (lives _ _ live)
  · intro sc member opened
    rw [closing]
    exact links.conns sc (conns sc member opened) opened
  · intro cncsts member fresh opened
    have old := links.pending cncsts member fresh opened
    refine ⟨old.range, old.socket, fun ipaddress live => old.live _ (lives _ _ live),
      fun sc inside status same => ?_⟩
    rw [closing]
    exact old.stale sc (conns sc inside status) status same
  · exact links.apart
  · intro sndmsg member
    obtain ⟨⟨si, present, waits, socket⟩, live⟩ := links.messages sndmsg member
    obtain ⟨si', present', name, address⟩ := known.kept si present
    refine ⟨⟨si', present', ?_, ?_⟩, fun ipaddress later => live ipaddress (lives _ _ later)⟩
    · rw [name]
      exact waiting sndmsg member _ waits
    · rw [address]
      exact socket
  · exact known.addresses links.addresses

/-- A row that `run_jobs` may insert: to open a connection, or to close one that no job and
no status relies on. -/
def Insertable (s : State) (row : SendersComm) : Prop :=
  row.mtype = .openConn ∨ row.mtype = .closeConn ∧ (IsInt4 row.mdata1 ∧ IsInt4 row.mdata2) ∧
    s.sockets row.mdata2 = some (.connected row.mdata1) ∧
    (∀ cncsts ∈ s.statuses, ¬ Recorded s cncsts.scommid → 0 ≤ cncsts.fd →
      cncsts.fd ≠ row.mdata2) ∧
    ∀ sndmsg ∈ s.messages, sndmsg.fd ≠ row.mdata2

theorem Links.insert (links : Links s) {row : SendersComm} (insertable : Insertable s row)
    (comms : db.sendersComms = s.db.sendersComms ++ [row]) (next : row.scommid = s.db.scommidSeq)
    (sequence : db.scommidSeq = s.db.scommidSeq + 1)
    (absent : ∀ sm ∈ s.db.sendersComms, ¬ (sm.mdata1 = row.mdata1 ∧ sm.mdata2 = row.mdata2))
    (conns : db.sendingConns = s.db.sendingConns) (sysinfo : db.sysinfo = s.db.sysinfo)
    (jobs : db.jobScheduler = s.db.jobScheduler) : Links { s with db := db } := by
  have split {sm : SendersComm} (member : sm ∈ db.sendersComms) :
      sm ∈ s.db.sendersComms ∨ sm = row := by
    rw [comms] at member
    exact (List.mem_append.mp member).imp_right List.mem_singleton.mp
  have keep {sm : SendersComm} (member : sm ∈ s.db.sendersComms) : sm ∈ db.sendersComms := by
    rw [comms]
    exact List.mem_append_left _ member
  have closing {ipaddress fd : Int} (before : Closing s.db ipaddress fd) :
      Closing db ipaddress fd := by
    obtain ⟨sm, member, rest⟩ := before
    exact ⟨sm, keep member, rest⟩
  -- the new row is to close its own connection only
  have lives {ipaddress fd : Int} (live : Live { s with db := db } ipaddress fd) :
      Live s ipaddress fd ∨ row.mtype = .closeConn ∧ row.mdata1 = ipaddress ∧ row.mdata2 = fd := by
    rcases live with ⟨sm, member, mtype, data⟩ | order
    · rcases split member with old | rfl
      · exact .inl (.inl ⟨sm, old, mtype, data⟩)
      · exact .inr ⟨mtype, data⟩
    · exact .inl (.inr order)
  have outside {fd : Int} (other : row.mtype = .closeConn → fd ≠ row.mdata2)
      (live : ∀ ipaddress, ¬ Live s ipaddress fd) (ipaddress : Int) :
      ¬ Live { s with db := db } ipaddress fd := by
    intro later
    rcases lives later with before | ⟨mtype, -, same⟩
    · exact live ipaddress before
    · exact other mtype same.symm
  constructor
  · rw [comms, List.map_append, List.nodup_append]
    refine ⟨links.scommids, List.nodup_singleton _, ?_⟩
    rintro scommid member other single rfl
    obtain ⟨sm, inside, same⟩ := List.mem_map.mp member
    have low := links.below sm inside
    rw [List.mem_singleton.mp single] at same
    omega
  · intro sm member
    rw [sequence]
    rcases split member with old | rfl
    · exact (links.below sm old).trans (Nat.lt_succ_self _)
    · omega
  · rw [comms, List.map_append, List.nodup_append]
    refine ⟨links.pairs, List.nodup_singleton _, ?_⟩
    rintro pair member other single rfl
    obtain ⟨sm, inside, same⟩ := List.mem_map.mp member
    rw [List.mem_singleton.mp single] at same
    exact absent sm inside (Prod.mk.inj same)
  · intro sm member mtype
    rcases split member with old | rfl
    · exact links.range sm old mtype
    · rcases insertable with opens | ⟨-, range, -⟩
      · exact absurd mtype (by rw [opens]; decide)
      · exact range
  · exact links.tokens
  · intro opncn member
    obtain ⟨range, sm, inside, rest⟩ := links.opens opncn member
    exact ⟨range, sm, keep inside, rest⟩
  · intro clscn member
    obtain ⟨sm, inside, rest⟩ := links.closes clscn member
    exact ⟨sm, keep inside, rest⟩
  · intro cncsts member
    obtain ⟨sm, inside, rest⟩ := links.reports cncsts member
    exact ⟨sm, keep inside, rest⟩
  · intro idx marked place
    obtain ⟨inside, test⟩ := List.mem_filter.mp (links.marking idx marked place)
    exact List.mem_filter.mpr ⟨keep inside, test⟩
  · intro idx scommid place sm member same mtype sc inside
    rcases split member with old | rfl
    · exact links.deleting idx scommid place sm old same mtype sc (conns ▸ inside)
    · rcases insertable with opens | ⟨closes, -⟩
      · cases mtype.symm.trans opens
      · cases mtype.symm.trans closes
  · intro ipaddress fd live
    rcases lives live with before | ⟨mtype, rfl, rfl⟩
    · exact links.live ipaddress fd before
    · rcases insertable with opens | ⟨-, -, socket, -⟩
      · cases mtype.symm.trans opens
      · exact socket
  · intro sc member opened
    rw [show ({ s with db := db } : State).db.sendingConns = s.db.sendingConns from conns] at member
    obtain ⟨range, holds⟩ := links.conns sc member opened
    exact ⟨range, holds.imp_left closing⟩
  · intro cncsts member fresh opened
    have old := links.pending cncsts member fresh opened
    refine ⟨old.range, old.socket, outside ?_ old.live, fun sc inside status same => ?_⟩
    · intro mtype
      rcases insertable with opens | ⟨-, -, -, apart, -⟩
      · cases mtype.symm.trans opens
      · exact apart cncsts member fresh opened
    · exact closing (old.stale sc (conns ▸ inside) status same)
  · exact links.apart
  · intro sndmsg member
    obtain ⟨⟨si, present, waits, socket⟩, live⟩ := links.messages sndmsg member
    refine ⟨⟨si, sysinfo ▸ present, ?_, socket⟩, outside ?_ live⟩
    · rwa [waiting_same jobs]
    · intro mtype
      rcases insertable with opens | ⟨-, -, -, -, apart⟩
      · cases mtype.symm.trans opens
      · exact apart sndmsg member
  · exact sysinfo ▸ links.addresses

theorem links_insertComm {mtype : MType} {row : Int × Option Int}
    (links : Links { s with db := db }) (insertable : ∀ mdata2, row.2 = some mdata2 →
      (∀ sm ∈ db.sendersComms, ¬ (sm.mdata1 = row.1 ∧ sm.mdata2 = mdata2)) →
      Insertable { s with db := db } ⟨db.scommidSeq, row.1, mdata2, mtype⟩)
    (done : insertComm mtype db row = .ok db') : Links { s with db := db' } := by
  obtain ⟨only, conns⟩ := onlyConns_insertComm done
  rcases insertComm_ok done with ⟨same, sequence⟩ | ⟨mdata2, known, absent, comms, sequence⟩
  · exact links.database same sequence (fun _ member _ => conns ▸ member) (.of_eq only.sysinfo)
      fun _ _ _ waits => by rwa [waiting_same only.jobScheduler]
  · exact links.insert (insertable mdata2 known absent) comms rfl sequence absent conns only.sysinfo
      only.jobScheduler

theorem insertable_close {sc : SendingConn} (links : Links s) (member : sc ∈ s.db.sendingConns)
    (opened : sc.scstatus = 2) {si : SysInfo} (present : si ∈ s.db.sysinfo)
    (same : sc.sipaddr = si.ipaddress)
    (idle : ∀ js ∈ s.db.jobScheduler, js.jdestination = si.systemName → js.jstate = .C)
    (absent : ∀ sm ∈ s.db.sendersComms, ¬ (sm.mdata1 = sc.sipaddr ∧ sm.mdata2 = sc.sfd))
    (scommid : Nat) : Insertable s ⟨scommid, sc.sipaddr, sc.sfd, .closeConn⟩ := by
  have notClosing : ¬ Closing s.db sc.sipaddr sc.sfd := by
    rintro ⟨sm, inside, -, pair⟩
    exact absent sm inside pair
  obtain ⟨range, holds⟩ := links.conns sc member opened
  have socket := holds.resolve_left notClosing
  refine .inr ⟨rfl, range, socket, fun cncsts inside fresh low equal => ?_,
    fun sndmsg inside equal => ?_⟩
  · exact notClosing ((links.pending cncsts inside fresh low).stale sc member opened equal.symm)
  · obtain ⟨⟨si', present', waits, socket'⟩, -⟩ := links.messages sndmsg inside
    have address : si'.ipaddress = sc.sipaddr := by
      rw [show sndmsg.fd = sc.sfd from equal, socket] at socket'
      simpa [eq_comm] using socket'
    obtain rfl : si' = si :=
      List.inj_on_of_nodup_map links.addresses present' present (address.trans same)
    obtain ⟨js, listed, state, -, destination⟩ := mem_waitingJobs.mp waits
    cases state.symm.trans (idle js listed destination)

theorem links_manageConns (links : Links { s with db := db }) (done : manageConns db = .ok db') :
    Links { s with db := db' } := by
  unfold manageConns openConns closeConns at done
  obtain ⟨u, opened, closed⟩ := bind_ok.mp done
  obtain ⟨comms, sequence, conns⟩ := registerConns_ok db
  have only := onlyConns_registerConns db
  have registered : Links { s with db := registerConns db } :=
    links.database comms sequence.ge conns (.of_eq only.sysinfo)
      fun _ _ _ waits => by rwa [waiting_same only.jobScheduler]
  have opens : Links { s with db := u } :=
    foldlM_keeps (fun u => Links { s with db := u })
      (fun _ _ _ _ kept moved => links_insertComm kept (fun _ _ _ => .inl rfl) moved) registered
      opened
  -- the rows to close were read before the first insert
  refine (foldlM_keeps (fun v => Links { s with db := v } ∧ OnlyConns u v ∧
    v.sendingConns = u.sendingConns) (fun v row v' member kept moved => ?_)
    ⟨opens, .refl u, rfl⟩ closed).1
  obtain ⟨linked, frame, same⟩ := kept
  obtain ⟨later, same'⟩ := onlyConns_insertComm moved
  refine ⟨links_insertComm linked (fun mdata2 known absent => ?_) moved, frame.trans later,
    same'.trans same⟩
  obtain ⟨sc, inside, status, rfl, si, present, address, idle⟩ := mem_closeRows member
  obtain rfl := Option.some.inj known
  exact insertable_close linked (same ▸ inside) status (frame.sysinfo ▸ present) address
    (frame.jobScheduler ▸ idle) absent _

/-- The execution of a command: its status takes its place. A socket may only go when its
command to close it was the last one, and nothing on its way relies on it. -/
theorem Links.report (links : Links s) {command : SenderComm} {cncsts : ConnectionStatus}
    {sockets : Int → Option Socket} (place : s.sender = .executing command)
    (id : commandId command = some cncsts.scommid)
    (row : ∃ sm ∈ s.db.sendersComms, sm.scommid = cncsts.scommid ∧
      (sm.mtype = .W .openConn ∨
        sm.mtype = .W .closeConn ∧ cncsts.fd = -1 ∧ sm.mdata1 = cncsts.ipaddress))
    (fresh : 0 ≤ cncsts.fd → (IsInt4 cncsts.fd ∧ IsInt4 cncsts.ipaddress) ∧
      s.sockets cncsts.fd = none ∧ sockets cncsts.fd = some (.connected cncsts.ipaddress))
    (keeps : ∀ fd ipaddress, s.sockets fd = some (.connected ipaddress) →
      sockets fd = some (.connected ipaddress) ∨ Closing s.db ipaddress fd ∧
        (∀ ipaddress', ¬ Live { s with sender := .reporting cncsts } ipaddress' fd) ∧
        (∃ ipaddress', Live s ipaddress' fd)) :
    Links { s with sockets := sockets, sender := .reporting cncsts } := by
  have split : s.orders = command :: s.comms.held 1 := by rw [State.orders, place]; rfl
  have reported : s.statuses = (s.comms.held 2).filterMap connectionOf := by
    rw [State.statuses, place]; rfl
  have orders {other : SenderComm} (member : other ∈ s.comms.held 1) : other ∈ s.orders := by
    rw [split]
    exact List.mem_cons_of_mem _ member
  have lives {ipaddress fd : Int}
      (live : Live { s with sockets := sockets, sender := .reporting cncsts } ipaddress fd) :
      Live s ipaddress fd := by
    rcases live with row | ⟨scommid, order⟩
    · exact .inl row
    · exact .inr ⟨scommid, orders order⟩
  have connected {fd ipaddress : Int} (socket : s.sockets fd = some (.connected ipaddress))
      (unused : ∀ ipaddress, ¬ Live s ipaddress fd) :
      sockets fd = some (.connected ipaddress) := by
    rcases keeps fd ipaddress socket with still | ⟨-, -, ipaddress', live⟩
    · exact still
    · exact absurd live (unused ipaddress')
  constructor
  · exact links.scommids
  · exact links.below
  · exact links.pairs
  · exact links.range
  · have before := links.tokens
    rw [State.tokens, split, reported, List.filterMap_cons, id] at before
    exact List.perm_middle.nodup_iff.mpr before
  · exact fun opncn member => links.opens opncn (orders member)
  · exact fun clscn member => links.closes clscn (orders member)
  · intro other member
    rcases List.mem_cons.mp member with rfl | old
    · exact row
    · exact links.reports other (reported ▸ old)
  · exact links.marking
  · exact links.deleting
  · intro ipaddress fd live
    rcases keeps fd ipaddress (links.live ipaddress fd (lives live)) with still | ⟨-, none, -⟩
    · exact still
    · exact absurd live (none ipaddress)
  · intro sc member opened
    obtain ⟨range, holds⟩ := links.conns sc member opened
    refine ⟨range, ?_⟩
    rcases holds with closing | socket
    · exact .inl closing
    · rcases keeps sc.sfd sc.sipaddr socket with still | ⟨closing, -⟩
      · exact .inr still
      · exact .inl closing
  · intro other member recorded opened
    rcases List.mem_cons.mp member with rfl | old
    · obtain ⟨range, unused, socket⟩ := fresh opened
      refine ⟨range, socket, fun ipaddress live => ?_, fun sc inside status same => ?_⟩
      · cases unused.symm.trans (links.live ipaddress _ (lives live))
      · refine (links.conns sc inside status).2.resolve_right fun socket => ?_
        rw [same] at socket
        cases unused.symm.trans socket
    · have pending := links.pending other (reported ▸ old) recorded opened
      exact ⟨pending.range, connected pending.socket pending.live,
        fun ipaddress live => pending.live ipaddress (lives live), pending.stale⟩
  · -- the new descriptor is not among those reported before
    have differ {old : ConnectionStatus} (member : old ∈ s.statuses)
        (recorded : ¬ Recorded s old.scommid) (low : 0 ≤ old.fd) (equal : cncsts.fd = old.fd) :
        False := by
      have socket := (links.pending old member recorded low).socket
      rw [← equal] at socket
      cases (fresh (equal ▸ low)).2.1.symm.trans socket
    intro first inside second other recorded recorded' low equal
    rcases List.mem_cons.mp inside with rfl | old
    · rcases List.mem_cons.mp other with rfl | old'
      · rfl
      · exact (differ (reported ▸ old') recorded' (equal ▸ low) equal).elim
    · rcases List.mem_cons.mp other with rfl | old'
      · exact (differ (reported ▸ old) recorded low equal.symm).elim
      · exact links.apart first (reported ▸ old) second (reported ▸ old') recorded recorded' low equal
  · intro sndmsg member
    have inside : sndmsg ∈ s.messages := by
      rw [State.messages, place]
      exact member
    obtain ⟨⟨si, present, waits, socket⟩, live⟩ := links.messages sndmsg inside
    exact ⟨⟨si, present, waits, connected socket live⟩,
      fun ipaddress later => live _ (lives later)⟩
  · exact links.addresses

theorem links_connectFails (links : Links s) {opncn : OpenConnection}
    {sockets : Int → Option Socket} (place : s.sender = .executing (.openConn opncn))
    (keeps : ∀ fd ipaddress, s.sockets fd = some (.connected ipaddress) →
      sockets fd = some (.connected ipaddress)) :
    Links { s with sockets := sockets, sender := .reporting ⟨-1, opncn.ipaddress, opncn.scommid⟩ } := by
  have order : .openConn opncn ∈ s.orders := by
    rw [State.orders, place]
    exact List.mem_cons_self
  obtain ⟨-, sm, inside, same, mtype⟩ := links.opens opncn order
  exact links.report place rfl ⟨sm, inside, same, .inl mtype⟩ (fun low => absurd low (by decide : ¬ (0 : Int) ≤ -1))
    fun fd ipaddress socket => .inl (keeps fd ipaddress socket)

theorem update_unused {sockets : Int → Option Socket} {fd : Int} (unused : sockets fd = none)
    (socket : Socket) {other ipaddress : Int} (open' : sockets other = some (.connected ipaddress)) :
    Function.update sockets fd (some socket) other = some (.connected ipaddress) := by
  rw [Function.update_of_ne, open']
  rintro rfl
  cases unused.symm.trans open'

theorem links_connect (links : Links s) {opncn : OpenConnection} {fd : Int}
    (place : s.sender = .executing (.openConn opncn)) (low : 0 ≤ fd) (high : fd ≤ int4Max)
    (unused : s.sockets fd = none) : Links { s with
      sockets := Function.update s.sockets fd (some (.connected opncn.ipaddress))
      sender := .reporting ⟨fd, opncn.ipaddress, opncn.scommid⟩ } := by
  have order : .openConn opncn ∈ s.orders := by
    rw [State.orders, place]
    exact List.mem_cons_self
  obtain ⟨range, sm, inside, same, mtype⟩ := links.opens opncn order
  refine links.report place rfl ⟨sm, inside, same, .inl mtype⟩ (fun _ => ?_)
    fun _ _ socket => .inl (update_unused unused _ socket)
  exact ⟨⟨⟨(by decide : int4Min ≤ 0).trans low, high⟩, range⟩, unused, Function.update_self ..⟩

theorem links_close (links : Links s) {clscn : CloseConnection}
    (place : s.sender = .executing (.closeConn clscn)) : Links { s with
      sockets := Function.update s.sockets clscn.fd none
      sender := .reporting ⟨-1, clscn.ipaddress, clscn.scommid⟩ } := by
  have split : s.orders = .closeConn clscn :: s.comms.held 1 := by
    rw [State.orders, place]
    rfl
  have order : .closeConn clscn ∈ s.orders := split ▸ List.mem_cons_self
  have live : Live s clscn.ipaddress clscn.fd := .inr ⟨clscn.scommid, order⟩
  obtain ⟨sm, inside, same, mtype, address, descriptor⟩ := links.closes clscn order
  refine links.report place rfl ⟨sm, inside, same, .inr ⟨mtype, rfl, address⟩⟩
    (fun low => absurd low (by decide : ¬ (0 : Int) ≤ -1)) fun fd ipaddress socket => ?_
  by_cases mine : fd = clscn.fd
  · subst mine
    have equal := links.live _ _ live
    rw [socket] at equal
    obtain rfl : ipaddress = clscn.ipaddress := by simpa using equal
    refine .inr ⟨⟨sm, inside, .inr mtype, address, descriptor⟩, fun ipaddress' later => ?_, _, live⟩
    -- another command for this descriptor would have the same row
    have before : Live s ipaddress' clscn.fd := by
      rcases later with row | ⟨scommid, member⟩
      · exact .inl row
      · exact .inr ⟨scommid, split ▸ List.mem_cons_of_mem _ member⟩
    have equal' := links.live _ _ before
    rw [socket] at equal'
    obtain rfl : clscn.ipaddress = ipaddress' := by simpa using equal'
    rcases later with ⟨sm', inside', mtype', address', descriptor'⟩ | ⟨scommid, member⟩
    · obtain rfl : sm' = sm := List.inj_on_of_nodup_map links.pairs inside' inside
        (by rw [address, descriptor, address', descriptor'])
      cases mtype.symm.trans mtype'
    · obtain ⟨sm', inside', same', -, address', descriptor'⟩ := links.closes
        ⟨clscn.fd, clscn.ipaddress, scommid⟩ (split ▸ List.mem_cons_of_mem _ member)
      obtain rfl : sm' = sm := List.inj_on_of_nodup_map links.pairs inside' inside
        (by rw [address, descriptor, address', descriptor'])
      have unique := links.tokens
      rw [State.tokens, split, List.filterMap_cons] at unique
      refine (List.nodup_cons.mp unique).1 (List.mem_append_left _ ?_)
      exact List.mem_filterMap.mpr ⟨_, member, congrArg some (same'.symm.trans same)⟩
  · exact .inl ((Function.update_of_ne mine _ _).trans socket)

theorem Links.row (links : Links s) {first second : SendersComm}
    (inside : first ∈ s.db.sendersComms) (inside' : second ∈ s.db.sendersComms)
    (same : first.scommid = second.scommid) : first = second :=
  List.inj_on_of_nodup_map links.scommids inside inside' same

theorem mem_statuses {idx : Nat} {cncsts : ConnectionStatus}
    (found : s.comms.getSubblock true 2 = some idx)
    (holds : s.comms.partitions idx = some (.connection cncsts)) : cncsts ∈ s.statuses := by
  have inside := (Block.held_clear found holds).mem_iff.mpr List.mem_cons_self
  exact List.mem_append_right _ (List.mem_filterMap.mpr ⟨_, inside, rfl⟩)

theorem links_updateConns (links : Links s) {idx : Nat} {cncsts : ConnectionStatus}
    (place : s.processorS = .reading) (found : s.comms.getSubblock true 2 = some idx)
    (holds : s.comms.partitions idx = some (.connection cncsts)) : Links { s with
      processorS := .deleting idx cncsts.scommid
      db := s.db.sUpdateConns cncsts.ipaddress cncsts.fd (if cncsts.fd ≥ 0 then 2 else 1) } := by
  have member := mem_statuses found holds
  have nothing (scommid : Nat) : ¬ Recorded s scommid := by
    rintro ⟨idx, same⟩
    cases place.symm.trans same
  have updated {sc : SendingConn} (inside : sc ∈ (s.db.sUpdateConns cncsts.ipaddress cncsts.fd
      (if cncsts.fd ≥ 0 then 2 else 1)).sendingConns) (opened : sc.scstatus = 2) :
      (0 ≤ cncsts.fd ∧ sc.sipaddr = cncsts.ipaddress ∧ sc.sfd = cncsts.fd) ∨
        (sc.sipaddr ≠ cncsts.ipaddress ∧ sc ∈ s.db.sendingConns) := by
    obtain ⟨old, present, rfl⟩ := List.mem_map.mp inside
    split at opened
    · next same =>
        rw [if_pos same]
        refine .inl ⟨?_, same, rfl⟩
        by_contra low
        simp [low] at opened
    · next other =>
        rw [if_neg other]
        exact .inr ⟨other, present⟩
  constructor
  · exact links.scommids
  · exact links.below
  · exact links.pairs
  · exact links.range
  · exact links.tokens
  · exact links.opens
  · exact links.closes
  · exact links.reports
  · nofun
  · intro idx' scommid same sm inside id mtype sc present address opened
    cases same
    obtain ⟨sm', inside', id', kind⟩ := links.reports cncsts member
    obtain rfl := links.row inside inside' (id.trans id'.symm)
    rcases kind with other | ⟨-, low, data⟩
    · cases mtype.symm.trans other
    · rcases updated present opened with ⟨high, -⟩ | ⟨other, -⟩
      · rw [low] at high
        exact absurd high (by decide)
      · exact other (address.trans data)
  · exact links.live
  · intro sc inside opened
    rcases updated inside opened with ⟨low, address, descriptor⟩ | ⟨-, old⟩
    · have pending := links.pending cncsts member (nothing _) low
      rw [address, descriptor]
      exact ⟨pending.range.symm, .inr pending.socket⟩
    · exact links.conns sc old opened
  · intro other inside fresh low
    have old := links.pending other inside (nothing _) low
    refine ⟨old.range, old.socket, old.live, fun sc present opened same => ?_⟩
    rcases updated present opened with ⟨low', -, descriptor⟩ | ⟨-, before⟩
    · have equal := links.apart cncsts member other inside (nothing _) (nothing _) low'
        (descriptor.symm.trans same)
      exact absurd ⟨idx, by rw [equal]⟩ fresh
    · exact old.stale sc before opened same
  · exact fun first inside second other _ _ =>
      links.apart first inside second other (nothing _) (nothing _)
  · exact links.messages
  · exact links.addresses

theorem upper_outside {α : Type} {block : Block α} {state : Bool} {idx : Nat}
    (found : block.getSubblock state 2 = some idx) : idx ∉ Block.region 1 := by
  intro lower
  have high := (Block.mem_upper.mp (Block.getSubblock_some found).1).1
  have low := Block.mem_lower.mp lower
  omega

theorem links_deleteComms (links : Links s) {idx scommid : Nat}
    (place : s.processorS = .deleting idx scommid) (found : s.comms.getSubblock true 2 = some idx)
    {cncsts : ConnectionStatus} (holds : s.comms.partitions idx = some (.connection cncsts))
    (id : cncsts.scommid = scommid) : Links { s with
      comms := s.comms.toggleBit idx
      processorS := .commanding
      db := s.db.sDeleteComms scommid } := by
  have kept {sm : SendersComm} (inside : sm ∈ s.db.sendersComms) (other : sm.scommid ≠ scommid) :
      sm ∈ (s.db.sDeleteComms scommid).sendersComms :=
    List.mem_filter.mpr ⟨inside, by simpa using other⟩
  have before {sm : SendersComm} (inside : sm ∈ (s.db.sDeleteComms scommid).sendersComms) :
      sm ∈ s.db.sendersComms := (List.mem_filter.mp inside).1
  have lower : (s.comms.toggleBit idx).held 1 = s.comms.held 1 :=
    Block.held_clear_outside (Block.getSubblock_some found).2 (upper_outside found)
  have upper : s.statuses.Perm (cncsts :: (s.sender.report ++
      ((s.comms.toggleBit idx).held 2).filterMap connectionOf)) := by
    have moved := (Block.held_clear found holds).filterMap connectionOf
    exact (moved.append_left s.sender.report).trans List.perm_middle
  have tokens : s.tokens.Perm (scommid :: (s.orders.filterMap commandId ++
      (s.sender.report ++ ((s.comms.toggleBit idx).held 2).filterMap connectionOf).map
        ConnectionStatus.scommid)) := by
    have moved := upper.map ConnectionStatus.scommid
    rw [List.map_cons, id] at moved
    exact (moved.append_left (s.orders.filterMap commandId)).trans List.perm_middle
  obtain ⟨apart, unique⟩ := List.nodup_cons.mp (tokens.nodup_iff.mp links.tokens)
  have order {command : SenderComm} (member : command ∈ s.sender.command ++
      (s.comms.toggleBit idx).held 1) : command ∈ s.orders := by
    rwa [lower] at member
  have commandApart {command : SenderComm} {k : Nat} (member : command ∈ s.orders)
      (same : commandId command = some k) : k ≠ scommid := by
    rintro rfl
    exact apart (List.mem_append_left _ (List.mem_filterMap.mpr ⟨command, member, same⟩))
  have status {other : ConnectionStatus} (member : other ∈ s.sender.report ++
      ((s.comms.toggleBit idx).held 2).filterMap connectionOf) :
      other ∈ s.statuses ∧ other.scommid ≠ scommid := by
    refine ⟨upper.mem_iff.mpr (List.mem_cons_of_mem _ member), fun same => apart ?_⟩
    exact List.mem_append_right _ (same ▸ List.mem_map_of_mem member)
  have fresh {k : Nat} (other : k ≠ scommid) : ¬ Recorded s k := by
    rintro ⟨idx', same⟩
    cases place.symm.trans same
    exact other rfl
  have lives {ipaddress fd : Int} (live : Live { s with
      comms := s.comms.toggleBit idx
      processorS := .commanding
      db := s.db.sDeleteComms scommid } ipaddress fd) : Live s ipaddress fd := by
    rcases live with ⟨sm, inside, rest⟩ | ⟨k, member⟩
    · exact .inl ⟨sm, before inside, rest⟩
    · exact .inr ⟨k, order member⟩
  -- the connection of a deleted row is not open
  have closing {sc : SendingConn} (present : sc ∈ s.db.sendingConns) (opened : sc.scstatus = 2)
      (was : Closing s.db sc.sipaddr sc.sfd) :
      Closing (s.db.sDeleteComms scommid) sc.sipaddr sc.sfd := by
    obtain ⟨sm, inside, kind, data⟩ := was
    refine ⟨sm, kept inside fun same => ?_, kind, data⟩
    obtain ⟨sm', inside', id', kind'⟩ := links.reports cncsts (mem_statuses found holds)
    obtain rfl := links.row inside inside' (same.trans (id.symm.trans id'.symm))
    have mtype : sm.mtype = .W .closeConn := by
      rcases kind' with other | ⟨mtype, -⟩
      · rw [other] at kind
        exact absurd kind (by decide)
      · exact mtype
    exact links.deleting idx scommid place sm inside same mtype sc present data.1.symm opened
  constructor
  · exact links.scommids.sublist (List.filter_sublist.map _)
  · exact fun sm inside => links.below sm (before inside)
  · exact links.pairs.sublist (List.filter_sublist.map _)
  · exact fun sm inside => links.range sm (before inside)
  · simp only [State.tokens, State.orders, lower]
    exact unique
  · intro opncn member
    obtain ⟨range, sm, inside, same, mtype⟩ := links.opens opncn (order member)
    exact ⟨range, sm, kept inside (same ▸ commandApart (order member) rfl), same, mtype⟩
  · intro clscn member
    obtain ⟨sm, inside, same, rest⟩ := links.closes clscn (order member)
    exact ⟨sm, kept inside (same ▸ commandApart (order member) rfl), same, rest⟩
  · intro other member
    obtain ⟨old, differs⟩ := status member
    obtain ⟨sm, inside, same, rest⟩ := links.reports other old
    exact ⟨sm, kept inside (same ▸ differs), same, rest⟩
  · nofun
  · nofun
  · exact fun ipaddress fd live => links.live ipaddress fd (lives live)
  · intro sc present opened
    obtain ⟨range, holds⟩ := links.conns sc present opened
    exact ⟨range, holds.imp_left (closing present opened)⟩
  · intro other member _ low
    obtain ⟨old, differs⟩ := status member
    have pending := links.pending other old (fresh differs) low
    exact ⟨pending.range, pending.socket, fun ipaddress live => pending.live _ (lives live),
      fun sc present opened same => closing present opened (pending.stale sc present opened same)⟩
  · intro first inside second other _ _
    exact links.apart first (status inside).1 second (status other).1 (fresh (status inside).2)
      (fresh (status other).2)
  · intro sndmsg member
    obtain ⟨⟨si, present, waits, socket⟩, live⟩ := links.messages sndmsg member
    exact ⟨⟨si, present, waits, socket⟩, fun ipaddress later => live ipaddress (lives later)⟩
  · exact links.addresses

theorem commandId_commandOf (row : SendersComm) : commandId (commandOf row) = some row.scommid := by
  unfold commandOf
  split <;> rfl

theorem links_updateComms (links : Links s) {idx : Nat} {row : SendersComm}
    (place : s.processorS = .marking idx row) (found : s.comms.getSubblock false 1 = some idx) :
    Links { s with
      comms := s.comms.write idx (commandOf row)
      semLockSigs := s.semLockSigs + 1
      processorS := .giving
      db := s.db.sUpdateComms row.scommid } := by
  obtain ⟨listed, test⟩ := List.mem_filter.mp (links.marking idx row place)
  have mtype : row.mtype = .openConn ∨ row.mtype = .closeConn := by simpa using test
  let mark (sm : SendersComm) : SendersComm :=
    if sm.scommid = row.scommid then { sm with mtype := .W sm.mtype } else sm
  have other {sm : SendersComm} (inside : sm ∈ s.db.sendersComms) (differs : sm ≠ row) :
      mark sm = sm := if_neg fun same => differs (links.row inside listed same)
  have marked : mark row = { row with mtype := .W row.mtype } := if_pos rfl
  have data (sm : SendersComm) : (mark sm).scommid = sm.scommid ∧ (mark sm).mdata1 = sm.mdata1 ∧
      (mark sm).mdata2 = sm.mdata2 := by
    by_cases same : sm.scommid = row.scommid
    · rw [show mark sm = { sm with mtype := .W sm.mtype } from if_pos same]
      exact ⟨rfl, rfl, rfl⟩
    · rw [show mark sm = sm from if_neg same]
      exact ⟨rfl, rfl, rfl⟩
  have keep {sm : SendersComm} {m : MType} (inside : sm ∈ s.db.sendersComms)
      (state : sm.mtype = .W m) : sm ∈ (s.db.sUpdateComms row.scommid).sendersComms := by
    have differs : sm ≠ row := by
      rintro rfl
      rcases mtype with h | h
      · cases state.symm.trans h
      · cases state.symm.trans h
    exact List.mem_map.mpr ⟨sm, inside, other inside differs⟩
  have now : { row with mtype := .W row.mtype } ∈
      (s.db.sUpdateComms row.scommid).sendersComms := List.mem_map.mpr ⟨row, listed, marked⟩
  have closing {ipaddress fd : Int} (before : Closing s.db ipaddress fd) :
      Closing (s.db.sUpdateComms row.scommid) ipaddress fd := by
    obtain ⟨sm, inside, kind, same⟩ := before
    rcases kind with plain | waits
    · by_cases mine : sm = row
      · subst mine
        exact ⟨_, now, .inr (congrArg MType.W plain), same⟩
      · exact ⟨sm, List.mem_map.mpr ⟨sm, inside, other inside mine⟩, .inl plain, same⟩
    · exact ⟨sm, keep inside waits, .inr waits, same⟩
  have lower : (s.sender.command ++ (s.comms.write idx (commandOf row)).held 1).Perm
      (commandOf row :: s.orders) :=
    ((Block.held_write found).append_left _).trans List.perm_middle
  have upper : (s.comms.write idx (commandOf row)).held 2 = s.comms.held 2 :=
    Block.held_write_outside (Block.getSubblock_some found).2 (lower_outside found)
  have order {command : SenderComm} (member : command ∈ s.sender.command ++
      (s.comms.write idx (commandOf row)).held 1) : command = commandOf row ∨ command ∈ s.orders :=
    List.mem_cons.mp (lower.mem_iff.mp member)
  have status {cncsts : ConnectionStatus} (member : cncsts ∈ s.sender.report ++
      ((s.comms.write idx (commandOf row)).held 2).filterMap connectionOf) :
      cncsts ∈ s.statuses := by
    rwa [upper] at member
  have range (close : row.mtype = .closeConn) : atoi row.mdata1 = row.mdata1 ∧
      atoi row.mdata2 = row.mdata2 := by
    obtain ⟨first, second⟩ := links.range row listed (.inl close)
    exact ⟨atoi_self first, atoi_self second⟩
  have lives {ipaddress fd : Int} (live : Live { s with
      comms := s.comms.write idx (commandOf row)
      semLockSigs := s.semLockSigs + 1
      processorS := .giving
      db := s.db.sUpdateComms row.scommid } ipaddress fd) : Live s ipaddress fd := by
    rcases live with ⟨sm, inside, close, same⟩ | ⟨k, member⟩
    · obtain ⟨old, present, rfl⟩ := List.mem_map.mp inside
      split at close
      · cases close
      · next differs =>
          rw [if_neg differs] at same
          exact .inl ⟨old, present, close, same⟩
    · rcases order member with new | old
      · rcases mtype with opens | close
        · rw [commandOf, if_pos opens] at new
          cases new
        · rw [commandOf, if_neg (by simp [close]), (range close).1, (range close).2] at new
          obtain ⟨descriptor, address, -⟩ := CloseConnection.mk.inj (SenderComm.closeConn.inj new)
          exact .inl ⟨row, listed, close, address.symm, descriptor.symm⟩
      · exact .inr ⟨k, old⟩
  constructor
  · have same : (s.db.sUpdateComms row.scommid).sendersComms.map SendersComm.scommid =
        s.db.sendersComms.map SendersComm.scommid := by
      rw [Db.sUpdateComms, List.map_map]
      exact List.map_congr_left fun sm _ => (data sm).1
    exact same ▸ links.scommids
  · intro sm inside
    obtain ⟨old, present, rfl⟩ := List.mem_map.mp inside
    exact (data old).1.trans_lt (links.below old present)
  · have same : ((s.db.sUpdateComms row.scommid).sendersComms.map fun sm =>
        (sm.mdata1, sm.mdata2)) = s.db.sendersComms.map fun sm => (sm.mdata1, sm.mdata2) := by
      rw [Db.sUpdateComms, List.map_map]
      exact List.map_congr_left fun sm _ => Prod.ext (data sm).2.1 (data sm).2.2
    exact same ▸ links.pairs
  · intro sm inside kind
    obtain ⟨old, present, rfl⟩ := List.mem_map.mp inside
    by_cases mine : old = row
    · subst mine
      rw [show (if old.scommid = old.scommid then { old with mtype := .W old.mtype } else old) =
        { old with mtype := .W old.mtype } from if_pos rfl] at kind ⊢
      refine links.range old present ?_
      rcases kind with plain | waits
      · cases plain
      · exact .inl (MType.W.inj waits)
    · rw [show (if old.scommid = row.scommid then { old with mtype := .W old.mtype } else old) = old
        from other present mine] at kind ⊢
      exact links.range old present kind
  · have perm : (commandOf row :: s.orders).filterMap commandId =
        row.scommid :: s.orders.filterMap commandId := by
      rw [List.filterMap_cons, commandId_commandOf]
    have whole := ((lower.filterMap commandId).trans (.of_eq perm)).append_right
      (s.statuses.map ConnectionStatus.scommid)
    have nodup : (row.scommid :: s.tokens).Nodup := by
      refine List.nodup_cons.mpr ⟨fun member => ?_, links.tokens⟩
      -- the rows of the other tokens are marked
      obtain ⟨sm, inside, same, m, waits⟩ : ∃ sm ∈ s.db.sendersComms, sm.scommid = row.scommid ∧
          ∃ m, sm.mtype = .W m := by
        rcases List.mem_append.mp member with command | report
        · obtain ⟨command, present, same⟩ := List.mem_filterMap.mp command
          cases command with
          | openConn opncn =>
              obtain ⟨-, sm, inside, equal, waits⟩ := links.opens opncn present
              exact ⟨sm, inside, equal.trans (Option.some.inj same), _, waits⟩
          | closeConn clscn =>
              obtain ⟨sm, inside, equal, waits, -⟩ := links.closes clscn present
              exact ⟨sm, inside, equal.trans (Option.some.inj same), _, waits⟩
          | connection => cases same
          | message => cases same
        · obtain ⟨cncsts, present, same⟩ := List.mem_map.mp report
          obtain ⟨sm, inside, equal, kind⟩ := links.reports cncsts present
          rcases kind with waits | ⟨waits, -⟩
          · exact ⟨sm, inside, equal.trans same, _, waits⟩
          · exact ⟨sm, inside, equal.trans same, _, waits⟩
      obtain rfl := links.row inside listed same
      rcases mtype with h | h
      · cases waits.symm.trans h
      · cases waits.symm.trans h
    simp only [State.tokens, State.orders, State.statuses, upper]
    exact whole.nodup_iff.mpr nodup
  · intro opncn member
    rcases order member with new | old
    · rcases mtype with opens | close
      · rw [commandOf, if_pos opens] at new
        obtain rfl := SenderComm.openConn.inj new
        exact ⟨atoi_range _, _, now, rfl, congrArg MType.W opens⟩
      · rw [commandOf, if_neg (by simp [close])] at new
        cases new
    · obtain ⟨range, sm, inside, same, waits⟩ := links.opens opncn old
      exact ⟨range, sm, keep inside waits, same, waits⟩
  · intro clscn member
    rcases order member with new | old
    · rcases mtype with opens | close
      · rw [commandOf, if_pos opens] at new
        cases new
      · rw [commandOf, if_neg (by simp [close])] at new
        obtain rfl := SenderComm.closeConn.inj new
        exact ⟨_, now, rfl, congrArg MType.W close, (range close).1.symm, (range close).2.symm⟩
    · obtain ⟨sm, inside, same, waits, rest⟩ := links.closes clscn old
      exact ⟨sm, keep inside waits, same, waits, rest⟩
  · intro cncsts member
    obtain ⟨sm, inside, same, kind⟩ := links.reports cncsts (status member)
    rcases kind with waits | ⟨waits, rest⟩
    · exact ⟨sm, keep inside waits, same, .inl waits⟩
    · exact ⟨sm, keep inside waits, same, .inr ⟨waits, rest⟩⟩
  · nofun
  · nofun
  · exact fun ipaddress fd live => links.live ipaddress fd (lives live)
  · intro sc present opened
    obtain ⟨range, holds⟩ := links.conns sc present opened
    exact ⟨range, holds.imp_left closing⟩
  · have fresh (k : Nat) : ¬ Recorded s k := by
      rintro ⟨idx', same⟩
      cases place.symm.trans same
    intro cncsts member _ low
    have pending := links.pending cncsts (status member) (fresh _) low
    exact ⟨pending.range, pending.socket, fun ipaddress live => pending.live _ (lives live),
      fun sc present opened same => closing (pending.stale sc present opened same)⟩
  · have fresh (k : Nat) : ¬ Recorded s k := by
      rintro ⟨idx', same⟩
      cases place.symm.trans same
    exact fun first inside second other' _ _ =>
      links.apart first (status inside) second (status other') (fresh _) (fresh _)
  · intro sndmsg member
    obtain ⟨⟨si, present, waits, socket⟩, live⟩ := links.messages sndmsg member
    exact ⟨⟨si, present, waits, socket⟩, fun ipaddress later => live ipaddress (lives later)⟩
  · exact links.addresses

theorem waiting_appendW (keys : db.Keys) {js : Job} (member : js ∈ db.jobScheduler)
    (state : js.jstate = .S4) {id : Uuid} {destination : Text}
    (waits : (id, destination) ∈ waitingJobs db) :
    (id, destination) ∈ waitingJobs (db.appendW js.jobid) := by
  obtain ⟨job, inside, waiting, rfl, rfl⟩ := mem_waitingJobs.mp waits
  refine mem_waitingJobs.mpr ⟨job, List.mem_map.mpr ⟨job, inside, ?_⟩, waiting, rfl, rfl⟩
  refine if_neg fun same => ?_
  obtain rfl : job = js :=
    List.inj_on_of_nodup_map keys.jobids inside member (by simpa using same)
  cases waiting.symm.trans state

theorem waiting_updateStatus {id other : Uuid} {destination : Text} (differs : id ≠ other)
    (status : Int) (waits : (id, destination) ∈ waitingJobs db) :
    (id, destination) ∈ waitingJobs (db.updateStatus other status) := by
  obtain ⟨job, inside, waiting, rfl, rfl⟩ := mem_waitingJobs.mp waits
  exact mem_waitingJobs.mpr ⟨job, List.mem_map.mpr ⟨job, inside, by simp [differs]⟩, waiting, rfl,
    rfl⟩

theorem links_giveData (inv : Inv s) (links : Links s) {choice idx : Nat} {sc : SendingConn}
    {js : Job} (place : s.processorS = .giving) (found : s.datas.getSubblock false 3 = some idx)
    (first : firstInfo s.db choice = some (some (sc, js)))
    (notClosing : ¬ Closing s.db sc.sipaddr sc.sfd) : Links { s with
      datas := s.datas.write idx (sendMessageOf sc js)
      semLockSigs := s.semLockSigs + 1
      processorS := .waiting
      db := s.db.appendW js.jobid } := by
  obtain ⟨present, member, state, opened, si, known, destination, address⟩ :=
    Db.mem_sGetInfo.mp (firstInfo_mem first)
  obtain ⟨range, holds⟩ := links.conns sc present opened
  have socket := holds.resolve_left notClosing
  have taken : Links { s with db := s.db.appendW js.jobid } :=
    links.database rfl le_rfl (fun _ inside _ => inside) (.of_eq rfl)
      fun _ _ _ waits => waiting_appendW inv.keys member state waits
  have jobs : (s.sender.message ++ (s.datas.write idx (sendMessageOf sc js)).held 3).Perm
      (sendMessageOf sc js :: s.messages) :=
    ((Block.held_write found).append_left _).trans List.perm_middle
  refine taken.shrink rfl rfl (fun _ h => h) (fun _ h => h) (fun sndmsg inside => ?_) ⟨[], .refl _⟩
    ?_ nofun nofun
  · rcases List.mem_cons.mp (jobs.mem_iff.mp inside) with rfl | old
    · rw [sendMessageOf, atoi_self range.2]
      refine ⟨⟨si, known, ?_, ?_⟩, fun ipaddress live => notClosing ?_⟩
      · refine mem_waitingJobs.mpr ⟨{ js with jstate := .W js.jstate }, ?_, ?_, rfl, destination⟩
        · exact List.mem_map.mpr ⟨js, member, by simp⟩
        · exact congrArg JState.W state
      · exact address ▸ socket
      · have equal := taken.live ipaddress sc.sfd live
        rw [show ({ s with db := s.db.appendW js.jobid } : State).sockets = s.sockets from rfl,
          socket] at equal
        obtain rfl : sc.sipaddr = ipaddress := by simpa using equal
        exact taken.closing_of_live live
    · exact taken.messages sndmsg old
  · rintro cncsts - ⟨idx', same⟩
    cases place.symm.trans same

theorem Links.relocate (links : Links s) {comms : Block SenderComm} {datas : Block SendMessage}
    {sender : Sender} {processorS : ProcessorS} (sigs sigps : Nat)
    (orders : ∃ gone, (gone ++ (sender.command ++ comms.held 1)).Perm s.orders)
    (statuses : ∃ gone,
      (gone ++ (sender.report ++ (comms.held 2).filterMap connectionOf)).Perm s.statuses)
    (messages : ∀ sndmsg ∈ sender.message ++ datas.held 3, sndmsg ∈ s.messages)
    (same : processorS = s.processorS ∨ (∀ scommid, ¬ Recorded s scommid) ∧
      (∀ idx scommid, processorS ≠ .deleting idx scommid) ∧
      ∀ idx row, processorS = .marking idx row → row ∈ commands s.db) :
    Links ⟨datas, comms, sigs, sigps, processorS, sender, s.sockets, s.db⟩ := by
  obtain ⟨lost, orders⟩ := orders
  obtain ⟨lost', statuses⟩ := statuses
  refine links.shrink rfl rfl (fun command member => ?_) (fun cncsts member => ?_)
    (fun sndmsg member => links.messages sndmsg (messages sndmsg member)) ?_ ?_ ?_ ?_
  · exact orders.mem_iff.mp (List.mem_append_right _ member)
  · exact statuses.mem_iff.mp (List.mem_append_right _ member)
  · have first := orders.filterMap commandId
    have second := statuses.map ConnectionStatus.scommid
    rw [List.filterMap_append] at first
    rw [List.map_append] at second
    refine ⟨lost.filterMap commandId ++ lost'.map ConnectionStatus.scommid, ?_⟩
    refine List.Perm.trans ?_ (first.append second)
    simp only [List.append_assoc]
    exact (List.perm_append_comm_assoc _ _ _).append_left _
  · intro cncsts _ recorded
    rcases same with rfl | ⟨nothing, -⟩
    · exact recorded
    · exact absurd recorded (nothing _)
  · intro idx row place
    rcases same with rfl | ⟨-, -, marking⟩
    · exact links.marking idx row place
    · exact marking idx row place
  · intro idx scommid place
    rcases same with rfl | ⟨-, deleting, -⟩
    · exact place
    · exact absurd place (deleting idx scommid)

theorem not_recorded {place : ProcessorS} (now : s.processorS = place)
    (other : ∀ idx scommid, place ≠ .deleting idx scommid) (scommid : Nat) :
    ¬ Recorded s scommid := by
  rintro ⟨idx, same⟩
  exact other idx scommid (now.symm.trans same)

theorem links_step {a : Action} (inv : Inv s) (links : Links s) (guard : NotClosing s a)
    (moves : Moves s a t) : Links t := by
  have shape := inv.shape
  cases moves with
  | signal => exact links.relocate _ _ ⟨[], .refl _⟩ ⟨[], .refl _⟩ (fun _ h => h) (.inl rfl)
  | waitSigps place =>
      exact links.relocate _ _ ⟨[], .refl _⟩ ⟨[], .refl _⟩ (fun _ h => h)
        (.inr ⟨not_recorded place nofun, nofun, nofun⟩)
  | readNothing place =>
      exact links.relocate _ _ ⟨[], .refl _⟩ ⟨[], .refl _⟩ (fun _ h => h)
        (.inr ⟨not_recorded place nofun, nofun, nofun⟩)
  | readConnection place found holds => exact links_updateConns links place found holds
  | readMessage place found holds =>
      rename_i idx msgsts
      -- the other messages belong to other jobs
      have apart : ∀ sndmsg ∈ s.messages, sndmsg.uuid ≠ msgsts.uuid := by
        intro sndmsg member same
        have inside := (Block.held_clear found holds).mem_iff.mpr List.mem_cons_self
        have third : msgsts.uuid ∈ (s.comms.held 2).filterMap jobOf :=
          List.mem_filterMap.mpr ⟨_, inside, rfl⟩
        obtain ⟨-, rest, first⟩ := List.nodup_append.mp inv.nodup
        obtain ⟨-, -, second⟩ := List.nodup_append.mp rest
        rcases List.mem_append.mp member with local' | block
        · refine second sndmsg.uuid ?_ _ third same
          cases buffer : s.sender with
          | sending sent total =>
              rw [buffer] at local'
              rw [List.mem_singleton.mp local']
              exact List.mem_singleton.mpr rfl
          | _ => rw [buffer] at local'; cases local'
        · exact first sndmsg.uuid (List.mem_map_of_mem block) _
            (List.mem_append_right _ third) same
      have settled : Links { s with db := s.db.updateStatus msgsts.uuid (msgsts.status % 256) } :=
        links.database rfl le_rfl (fun _ h _ => h) (.of_eq rfl) fun sndmsg member _ waits =>
          waiting_updateStatus (apart sndmsg member) _ waits
      have upper := (Block.held_clear found holds).filterMap connectionOf
      have lower := Block.held_clear_outside (Block.getSubblock_some found).2 (upper_outside found)
      refine settled.relocate _ _ ⟨[], .of_eq ?_⟩ ⟨[], ?_⟩ (fun _ h => h)
        (.inr ⟨not_recorded place nofun, nofun, nofun⟩)
      · rw [lower]
        rfl
      · exact upper.symm.append_left _
  | readOther place found noConnection noMessage =>
      obtain ⟨record, holds⟩ := shape.comms _ (Block.getSubblock_some found).2
      have upper := (Block.held_clear found holds).filterMap connectionOf
      have none : connectionOf record = none := by
        cases record with
        | connection cncsts => exact absurd holds (noConnection cncsts)
        | _ => rfl
      rw [List.filterMap_cons, none] at upper
      have lower := Block.held_clear_outside (Block.getSubblock_some found).2 (upper_outside found)
      refine links.relocate _ _ ⟨[], .of_eq ?_⟩ ⟨[], ?_⟩ (fun _ h => h)
        (.inr ⟨not_recorded place nofun, nofun, nofun⟩)
      · rw [lower]
        rfl
      · exact upper.symm.append_left _
  | deleteComms place =>
      obtain ⟨found, cncsts, holds, same⟩ := shape.deleting _ _ place
      exact links_deleteComms links place found holds same
  | sendNothing place =>
      exact links.relocate _ _ ⟨[], .refl _⟩ ⟨[], .refl _⟩ (fun _ h => h)
        (.inr ⟨not_recorded place nofun, nofun, nofun⟩)
  | sendCommand place found listed =>
      refine links.relocate _ _ ⟨[], .refl _⟩ ⟨[], .refl _⟩ (fun _ h => h)
        (.inr ⟨not_recorded place nofun, nofun, fun idx row same => ?_⟩)
      cases same
      exact listed
  | updateComms place => exact links_updateComms links place (shape.marking _ _ place)
  | giveNothing place =>
      exact links.relocate _ _ ⟨[], .refl _⟩ ⟨[], .refl _⟩ (fun _ h => h)
        (.inr ⟨not_recorded place nofun, nofun, nofun⟩)
  | giveJob place found first =>
      exact links_giveData inv links place found first (notClosing_giveData.mp guard _ _ first)
  | waitSigs place =>
      refine links.relocate _ _ ⟨[], ?_⟩ ⟨[], ?_⟩ (fun sndmsg h => ?_) (.inl rfl)
      · rw [State.orders, place]
        exact .refl _
      · rw [State.statuses, place]
        exact .refl _
      · rw [State.messages, place]
        exact h
  | getNothing place =>
      refine links.relocate _ _ ⟨[], ?_⟩ ⟨[], ?_⟩ (fun sndmsg h => ?_) (.inl rfl)
      · rw [State.orders, place]
        exact .refl _
      · rw [State.statuses, place]
        exact .refl _
      · rw [State.messages, place]
        exact h
  | getCommand place free found holds =>
      have upper := Block.held_clear_outside (Block.getSubblock_some found).2 (lower_outside found)
      refine links.relocate _ _ ⟨[], ?_⟩ ⟨[], ?_⟩ (fun sndmsg h => ?_) (.inl rfl)
      · rw [State.orders, place]
        exact (Block.held_clear found holds).symm
      · rw [State.statuses, place, upper]
        exact .refl _
      · rw [State.messages, place]
        exact h
  | getOther place free found =>
      obtain ⟨record, holds⟩ := shape.comms _ (Block.getSubblock_some found).2
      have upper := Block.held_clear_outside (Block.getSubblock_some found).2 (lower_outside found)
      refine links.relocate _ _ ⟨[record], ?_⟩ ⟨[], ?_⟩ (fun sndmsg h => ?_) (.inl rfl)
      · rw [State.orders, place]
        exact (Block.held_clear found holds).symm
      · rw [State.statuses, place, upper]
        exact .refl _
      · rw [State.messages, place]
        exact h
  | connectNone place => exact links_connectFails links place fun _ _ socket => socket
  | connect place low high unused => exact links_connect links place low high unused
  | connectFails place unused =>
      exact links_connectFails links place fun _ _ socket => update_unused unused _ socket
  | close place => exact links_close links place
  | reportConnection place free found =>
      rename_i idx cncsts
      have upper := (Block.held_write (a := SenderComm.connection cncsts) found).filterMap connectionOf
      have lower := Block.held_write_outside (a := SenderComm.connection cncsts)
        (Block.getSubblock_some found).2 (upper_outside found)
      refine links.relocate _ _ ⟨[], ?_⟩ ⟨[], ?_⟩ (fun sndmsg h => ?_) (.inl rfl)
      · rw [State.orders, place, lower]
        exact .refl _
      · rw [State.statuses, place]
        exact upper
      · rw [State.messages, place]
        exact h
  | dropConnection place full =>
      rename_i cncsts
      refine links.relocate _ _ ⟨[], ?_⟩ ⟨[cncsts], ?_⟩ (fun sndmsg h => ?_) (.inl rfl)
      · rw [State.orders, place]
        exact .refl _
      · rw [State.statuses, place]
        exact .refl _
      · rw [State.messages, place]
        exact h
  | getNoData place =>
      refine links.relocate _ _ ⟨[], ?_⟩ ⟨[], ?_⟩ (fun sndmsg h => ?_) (.inl rfl)
      · rw [State.orders, place]
        exact .refl _
      · rw [State.statuses, place]
        exact .refl _
      · rw [State.messages, place]
        exact h
  | getData place found holds =>
      refine links.relocate _ _ ⟨[], ?_⟩ ⟨[], ?_⟩ (fun sndmsg h => ?_) (.inl rfl)
      · rw [State.orders, place]
        exact .refl _
      · rw [State.statuses, place]
        exact .refl _
      · rw [State.messages, place]
        exact (Block.held_clear found holds).mem_iff.mpr h
  | getEmpty place found holds =>
      obtain ⟨sndmsg, same⟩ := shape.datas _ (Block.getSubblock_some found).2
      cases holds.symm.trans same
  | sendMore place =>
      refine links.relocate _ _ ⟨[], ?_⟩ ⟨[], ?_⟩ (fun sndmsg h => ?_) (.inl rfl)
      · rw [State.orders, place]
        exact .refl _
      · rw [State.statuses, place]
        exact .refl _
      · rw [State.messages, place]
        exact h
  | sendDone place =>
      refine links.relocate _ _ ⟨[], ?_⟩ ⟨[], ?_⟩ (fun sndmsg h => ?_) (.inl rfl)
      · rw [State.orders, place]
        exact .refl _
      · rw [State.statuses, place]
        exact .refl _
      · exact List.mem_append_right _ h
  | reportMessage place free found =>
      rename_i idx msgsts
      have upper := (Block.held_write (a := SenderComm.message msgsts) found).filterMap connectionOf
      have lower := Block.held_write_outside (a := SenderComm.message msgsts)
        (Block.getSubblock_some found).2 (upper_outside found)
      refine links.relocate _ _ ⟨[], ?_⟩ ⟨[], ?_⟩ (fun sndmsg h => ?_) (.inl rfl)
      · rw [State.orders, place, lower]
        exact .refl _
      · rw [State.statuses, place]
        exact upper
      · rw [State.messages, place]
        exact h
  | dropMessage place =>
      refine links.relocate _ _ ⟨[], ?_⟩ ⟨[], ?_⟩ (fun sndmsg h => ?_) (.inl rfl)
      · rw [State.orders, place]
        exact .refl _
      · rw [State.statuses, place]
        exact .refl _
      · rw [State.messages, place]
        exact h
  | database other done =>
      rename_i op db
      have waiting := waiting_others inv.keys other done
      by_cases pass : ∃ env, op = .runJobs env
      · obtain ⟨env, rfl⟩ := pass
        obtain rfl := Option.some.inj done
        rcases Db.attempt_cases s.db (runJobs env s.db) with same | ⟨u, ok, same⟩
        · rw [same]
          exact links
        · rw [same] at waiting ⊢
          obtain ⟨v, before, managed⟩ := runJobs_managed.mp ok
          obtain ⟨conns, known⟩ := beforeConns_ok before
          refine links_manageConns (links.database conns.sendersComms conns.scommidSeq.ge
            (fun _ h _ => conns.sendingConns ▸ h) known fun _ _ _ waits => ?_) managed
          rw [← waiting_same (manageConns_frame managed).jobScheduler, waiting]
          exact waits
      · obtain ⟨conns, systems⟩ := others_conns other (fun env same => pass ⟨env, same⟩) done
        exact links.database conns.sendersComms conns.scommidSeq.ge
          (fun _ h _ => conns.sendingConns ▸ h) (.of_eq systems) fun _ _ _ waits => waiting ▸ waits

end Steps

theorem links_initial {db : Db} (comms : db.sendersComms = [])
    (conns : ∀ sc ∈ db.sendingConns, sc.scstatus ≠ 2)
    (addresses : (db.sysinfo.map SysInfo.ipaddress).Nodup) (sigs : Nat) :
    Links (initial db sigs) := by
  have noRow {sm : SendersComm} (member : sm ∈ (initial db sigs).db.sendersComms) : False := by
    rw [show (initial db sigs).db.sendersComms = [] from comms] at member
    cases member
  have orders : (initial db sigs).orders = [] := by
    simp [State.orders, initial, Sender.command, Block.held_empty]
  have statuses : (initial db sigs).statuses = [] := by
    simp [State.statuses, initial, Sender.report, Block.held_empty]
  have messages : (initial db sigs).messages = [] := by
    simp [State.messages, initial, Sender.message, Block.held_empty]
  constructor
  · rw [show (initial db sigs).db.sendersComms = [] from comms]
    exact List.nodup_nil
  · exact fun sm member => (noRow member).elim
  · rw [show (initial db sigs).db.sendersComms = [] from comms]
    exact List.nodup_nil
  · exact fun sm member => (noRow member).elim
  · rw [State.tokens, orders, statuses]
    exact List.nodup_nil
  · simp [orders]
  · simp [orders]
  · simp [statuses]
  · intro idx row place
    cases place
  · intro idx scommid place
    cases place
  · rintro ipaddress fd (⟨sm, member, -⟩ | ⟨scommid, order⟩)
    · exact (noRow member).elim
    · rw [orders] at order
      cases order
  · exact fun sc member opened => absurd opened (conns sc member)
  · simp [statuses]
  · simp [statuses]
  · simp [messages]
  · exact addresses

/-- In every run that hands jobs over only while their connections are not to be closed,
each call of `send` is on a socket that is connected to the job's destination. As in `readMsg`,
the text of an address is taken to fit its buffer. -/
theorem send_on_connected {db : Db} {sigs : Nat} {actions : List Action} {s : State}
    {sndmsg : SendMessage} {total : Int} (keys : db.Keys) (comms : db.sendersComms = [])
    (conns : ∀ sc ∈ db.sendingConns, sc.scstatus ≠ 2)
    (addresses : (db.sysinfo.map SysInfo.ipaddress).Nodup)
    (done : run step (initial db sigs) actions = some s)
    (guarded : Guarded step NotClosing (initial db sigs) actions)
    (place : s.sender = .sending sndmsg total) :
    ∃ job ∈ s.db.jobScheduler, job.jobid = sndmsg.uuid ∧ ∃ si ∈ s.db.sysinfo,
      si.systemName = job.jdestination ∧
        s.sockets sndmsg.fd = some (.connected si.ipaddress) := by
  have start : Inv (initial db sigs) ∧ Links (initial db sigs) :=
    ⟨inv_initial keys sigs, links_initial comms conns addresses sigs⟩
  have keeps (s : State) (a : Action) (t : State) (kept : Inv s ∧ Links s) (allowed : NotClosing s a)
      (moved : step s a = some t) : Inv t ∧ Links t :=
    ⟨inv_step kept.1 (step_moves moved), links_step kept.1 kept.2 allowed (step_moves moved)⟩
  obtain ⟨-, links⟩ := guarded_run_keeps keeps start guarded done
  have member : sndmsg ∈ s.messages := by
    rw [State.messages, place]
    exact List.mem_cons_self
  obtain ⟨⟨si, present, waits, socket⟩, -⟩ := links.messages sndmsg member
  obtain ⟨job, inside, -, id, destination⟩ := mem_waitingJobs.mp waits
  exact ⟨job, inside, id, si, present, destination.symm, socket⟩

def passFrom (n : Nat) : Action :=
  .database (.runJobs { now := sampleEnv.now, uuid := fun statement i => Uuid.ofNat (n + 10 * statement + i) })

def knownDb : Db :=
  { Db.sampleDb with
    sysinfo := [⟨ascii "   M1", 16843009, some 6101, 7000, some 180⟩]
    files := [⟨ascii "f", [7]⟩] }

def sendFileAs (n : Nat) : Action :=
  .database (.sendFile (Uuid.ofNat n) (ascii "f") (ascii "M1"))

def firstFile : List Action :=
  [sendFileAs 1, passFrom 100, .signal, .waitSigps, .readMsg, .sendMsg 0, .updateComms, .giveData 0,
    .waitSigs, .getMessage, .connect (some 5) true, .reportConnection, .getData, .waitSigps,
    .readMsg, .deleteComms, .sendMsg 0, .giveData 0, .waitSigs, .getMessage, .getData]

def secondFile : List Action :=
  firstFile ++ [.send 180, .reportMessage, .waitSigps, .readMsg, .sendMsg 0, .giveData 0,
    passFrom 200, sendFileAs 2, passFrom 300, .signal, .waitSigps, .readMsg, .sendMsg 0,
    .updateComms, .giveData 0, .waitSigs, .getMessage, .close, .reportConnection, .getData]

def aboutToSend (s : State) : Option (SendMessage × Int × Option Socket) :=
  match s.sender with
  | .sending sndmsg total => some (sndmsg, total, s.sockets sndmsg.fd)
  | _ => none

theorem aboutToSend_some {s : State} {sndmsg : SendMessage} {total : Int} {socket : Option Socket}
    (sends : aboutToSend s = some (sndmsg, total, socket)) :
    s.sender = .sending sndmsg total ∧ s.sockets sndmsg.fd = socket := by
  unfold aboutToSend at sends
  split at sends
  · next place =>
      obtain ⟨rfl, rfl, rfl⟩ := by simpa using sends
      exact ⟨place, rfl⟩
  · cases sends

theorem run_sends {actions : List Action} {socket : Option Socket}
    (sends : ((run step (initial knownDb 0) actions).bind aboutToSend).map (fun p => p.2.2) =
      some socket) : ∃ s sndmsg total, run step (initial knownDb 0) actions = some s ∧
      s.sender = .sending sndmsg total ∧ s.sockets sndmsg.fd = socket := by
  obtain ⟨⟨sndmsg, total, found⟩, place, rfl⟩ := Option.map_eq_some_iff.mp sends
  obtain ⟨s, done, about⟩ := Option.bind_eq_some_iff.mp place
  exact ⟨s, sndmsg, total, done, aboutToSend_some about⟩

theorem first_file_on_connected :
    ∃ s sndmsg total, run step (initial knownDb 0) firstFile = some s ∧
      s.sender = .sending sndmsg total ∧
      ∃ job ∈ s.db.jobScheduler, job.jobid = sndmsg.uuid ∧ ∃ si ∈ s.db.sysinfo,
        si.systemName = job.jdestination ∧
          s.sockets sndmsg.fd = some (.connected si.ipaddress) := by
  obtain ⟨s, sndmsg, total, done, place, -⟩ :=
    run_sends (by decide +kernel : ((run step (initial knownDb 0) firstFile).bind
      aboutToSend).map (fun p => p.2.2) = some (some (.connected 16843009)))
  refine ⟨s, sndmsg, total, done, place, send_on_connected ?_ ?_ ?_ ?_ done ?_ place⟩
  · exact ⟨by decide +kernel, by decide +kernel⟩
  · decide +kernel
  · decide +kernel
  · decide +kernel
  · decide +kernel

/-- The second file goes to a descriptor that is closed. -/
theorem second_file_on_closed :
    ∃ s sndmsg total, run step (initial knownDb 0) secondFile = some s ∧
      s.sender = .sending sndmsg total ∧ s.sockets sndmsg.fd = none :=
  run_sends (by decide +kernel)

end SenderSide

end FileSharing
