import FileSharing.Database.Lengths
import FileSharing.Network.Addresses
import FileSharing.Network.Agreement
import FileSharing.Receiver.HashTable

/-! Two ways of an agreed capacity: in the reply to the peer, and over `receivers_comms` to the
hash table of the own `receiver`, where the messages of the peer arrive. -/

namespace FileSharing

open Library RunJobs Capacities

namespace Arrivals

def IsAddress (a : Int) : Prop := int4Min ≤ a ∧ a < 2 ^ 32

instance (a : Int) : Decidable (IsAddress a) := inferInstanceAs (Decidable (_ ∧ _))

/-- The addresses are in range, and `receivers_comms` tells no capacity but one. -/
structure Told (capacity : Int) (db : Db) : Prop where
  sysinfo : ∀ si ∈ db.sysinfo, IsAddress si.ipaddress
  handed : ∀ row ∈ db.receiversComms, IsAddress row.rdata1 ∧ row.rdata2 = capacity

section Passes

variable {agreed : Int} {me peer : SelfInfo} {env : Env} {db db' : Db}

theorem told_only (told : Told agreed db) (only : OnlyJobs db db') : Told agreed db' :=
  ⟨only.sysinfo ▸ told.sysinfo, only.receiversComms ▸ told.handed⟩

theorem Told.of_rows (rows : Rows (fun si => IsAddress si.ipaddress)
    (fun row => IsAddress row.rdata1 ∧ row.rdata2 = agreed) db) : Told agreed db :=
  ⟨rows.sysinfo, rows.handed⟩

theorem Told.rows (told : Told agreed db) : Rows (fun si => IsAddress si.ipaddress)
    (fun row => IsAddress row.rdata1 ∧ row.rdata2 = agreed) db :=
  ⟨told.sysinfo, told.handed⟩

theorem tells_agreed {si : SysInfo} (address : IsAddress si.ipaddress)
    (written : si.systemCapacity = none ∨ si.systemCapacity = some agreed) :
    Tells (fun row => IsAddress row.rdata1 ∧ row.rdata2 = agreed) si := by
  intro id capacity known _
  cases written with
  | inl none => cases none.symm.trans known
  | inr same => exact ⟨address, Option.some.inj (known.symm.trans same)⟩

theorem told_upsert (told : Told agreed db) {r : Request} (address : IsAddress r.sourceIp)
    (done : upsertSysinfo [(r, some agreed)] db (r, some agreed) = .ok db') : Told agreed db' := by
  refine .of_rows (rows_upsert told.rows (fun si same written => ?_) done)
  have row : IsAddress si.ipaddress := same ▸ address
  exact ⟨row, tells_agreed row written⟩

theorem address_of_request {request : Job} {r : Request} (read : requestOf request = .ok r) :
    IsAddress r.sourceIp := by
  simp only [requestOf, bind_ok, pure_ok] at read
  obtain ⟨_, -, _, -, address, cast, rfl⟩ := read
  unfold int4in at cast
  split at cast
  · cases cast
  · obtain ⟨rfl, low, high⟩ := int4_ok cast
    unfold int4Max at high
    refine ⟨low, ?_⟩
    change address < 2 ^ 32
    omega

variable (name : IsName peer.systemName) (capacity : IsInt4 peer.systemCapacity)

include name capacity in
theorem told_answerRequests (inv : Agreement.SideInv me peer db)
    (told : Told (min me.systemCapacity peer.systemCapacity) db)
    (done : answerRequests env db = .ok db') :
    Told (min me.systemCapacity peer.systemCapacity) db' := by
  have finish {u : Db} (told : Told (min me.systemCapacity peer.systemCapacity) u) :
      Told (min me.systemCapacity peer.systemCapacity) (finishPending "4" u) :=
    told_only told (onlyJobs_update _ _ _)
  rcases answerRequests_ok done with ⟨-, rfl⟩ | ⟨request, r, reply, u, v, one, read, written, made,
    inserted, rfl⟩
  · exact finish told
  · have member : request ∈ pending "4" db := one ▸ List.mem_singleton.mpr rfl
    obtain ⟨-, field⟩ := Agreement.pending_request name capacity inv.jobs member
    have asked : r.rcapacity = peer.systemCapacity := by
      simp only [requestOf, field, bind_ok, pure_ok] at read
      obtain ⟨_, same, _, -, _, -, rfl⟩ := read
      exact (Except.ok.inj same).symm
    rw [asked, inv.selfinfo, Requests.smaller_eq_min, min_comm] at written
    have wrote := told_upsert told (address_of_request read) written
    exact finish (told_only wrote (insertJob_ok inserted).2.1)

theorem told_takeReplies (range : IsInt4 (min peer.systemCapacity me.systemCapacity))
    (inv : Agreement.SideInv me peer db)
    (told : Told (min me.systemCapacity peer.systemCapacity) db)
    (done : takeReplies db = .ok db') :
    Told (min me.systemCapacity peer.systemCapacity) db' := by
  refine .of_rows (rows_takeReplies told.rows (fun reply read _ old inside si same known => ?_) done)
  have row : IsAddress si.ipaddress := same ▸ told.sysinfo old inside
  obtain ⟨js, member, field⟩ := Agreement.mem_cteSysinfo read (List.mem_singleton.mpr rfl)
  rw [Agreement.pending_reply range inv.jobs member] at field
  have agreement : reply.1 = min me.systemCapacity peer.systemCapacity := by
    rw [← Except.ok.inj field, min_comm]
  exact ⟨row, tells_agreed row (.inr (agreement ▸ known))⟩

include name capacity in
theorem told_runJobs (own : Plain me.systemName) (mine : IsInt4 me.systemCapacity)
    (inv : Agreement.SideInv me peer db)
    (told : Told (min me.systemCapacity peer.systemCapacity) db)
    (done : runJobs env db = .ok db') : Told (min me.systemCapacity peer.systemCapacity) db' := by
  have range : IsInt4 (min peer.systemCapacity me.systemCapacity) := by
    cases min_choice peer.systemCapacity me.systemCapacity with
    | inl first => rwa [first]
    | inr second => rwa [second]
  unfold runJobs at done
  obtain ⟨a, promoted, rest⟩ := bind_ok.mp done
  obtain ⟨b, answered, rest⟩ := bind_ok.mp rest
  obtain ⟨c, replied, rest⟩ := bind_ok.mp rest
  obtain ⟨d, split, managed⟩ := bind_ok.mp rest
  have first := Agreement.inv_promote own inv promoted
  have second := Agreement.inv_answerRequests own name capacity first answered
  have only : OnlyJobs db a := (promote_ok (w := ⟨true, true⟩) rfl promoted).2
  have toldThird := told_takeReplies range second
    (told_answerRequests name capacity first (told_only told only) answered) replied
  have later : OnlyJobs c d := (splitJobs_ok (w := ⟨true, true⟩) rfl split).2
  have toldFourth := told_only toldThird later
  have conns := manageConns_frame managed
  exact ⟨conns.sysinfo ▸ toldFourth.sysinfo, conns.receiversComms ▸ toldFourth.handed⟩

end Passes

/-- Both databases and what is on the way between them, the lower half of the comms block of the
side `b`, the hash table of its receiver, the messages of `a` that were written to a connection
with `b`, and the entries that `hput` made. -/
structure State where
  net : Agreement.State
  commr : Block CapacityInfo
  htable : Hash.HashTable
  written : List Bytea
  entries : List CapacityInfo

/-- `processor_r` may pass a row on at any time, and `receiver` may take it at any time; `setUp`
builds the database of `a` again. -/
inductive Action where
  | exchange (action : Agreement.Action)
  | setUp (root : Uuid) (own : SelfInfo) (rows : List SysInfo) (files : List File)
  | send (job : Job)
  | sendMsgToReceiver (rcomid : Nat)
  | getMessageFromProcessor
  | arrive (conn : Addresses.Inbound) (message : Bytea)

def State.setDb (s : State) (side : Agreement.Side) (db : Db) : State :=
  { s with net := { s.net with db := Function.update s.net.db side db } }

def Built (s : State) (job : Job) : Prop :=
  job ∈ (s.net.db .a).jobScheduler ∧ job.jstate = .S4 ∧ 0 < job.jobdata.length ∧
    ∃ si ∈ (s.net.db .a).sysinfo, si.systemName = (s.net.db .b).selfinfo.systemName ∧
      job.jdestination = si.systemName ∧ si.systemCapacity = some (job.jobdata.length : Int)

instance (s : State) (job : Job) : Decidable (Built s job) := inferInstanceAs (Decidable (_ ∧ _))

def Unknown (si : SysInfo) : Prop :=
  Plain si.systemName ∧ si.systemCapacity = some 0 ∧ si.dataport = some 0

instance (si : SysInfo) : Decidable (Unknown si) := inferInstanceAs (Decidable (_ ∧ _))

def configured (root : Uuid) (own : SelfInfo) (rows : List SysInfo) (files : List File) : Db :=
  { Db.installed root own with sysinfo := rows, files := files }

def sendMsgToReceiver (s : State) (rcomid : Nat) : Option State :=
  match s.commr.getSubblock false 1 with
  | none => some s
  | some idx =>
      if (s.net.db .b).receiversComms = [] then some s
      else ((s.net.db .b).prGetcomms rcomid).map fun (row, db) =>
        { s.setDb .b db with commr := s.commr.write idx (Addresses.capacityInfo row) }

def getMessageFromProcessor (s : State) : Option State :=
  match s.commr.getSubblock true 1 with
  | none => some s
  | some idx => do
      let cpif ← s.commr.partitions idx
      let (status, htable) ← Hash.hput s.htable cpif.ipaddress cpif.capacity
      return { s with
        commr := s.commr.toggleBit idx
        htable := htable
        entries := if status = 0 then s.entries ++ [cpif] else s.entries }

def step (s : State) : Action → Option State
  | .exchange action => (Agreement.step s.net action).map fun net => { s with net := net }
  | .setUp root own rows files =>
      if ∀ si ∈ rows, Unknown si then
        some (s.setDb .a (configured root own rows files))
      else none
  | .send job => if Built s job then some { s with written := job.jobdata :: s.written } else none
  | .sendMsgToReceiver rcomid => sendMsgToReceiver s rcomid
  | .getMessageFromProcessor => getMessageFromProcessor s
  | .arrive conn message =>
      if message ∈ s.written ∧
          Addresses.addressOf conn.peername = (s.net.db .a).selfinfo.ipaddress then
        some { s with written := s.written.erase message }
      else none

/-- The size that `run_receiver` takes from the hash table is the length of the message. -/
def Sized (s : State) : Action → Prop
  | .arrive conn message =>
      Hash.hget s.htable (Addresses.receiverKey conn) = some (message.length : Int)
  | _ => True

def Announced (s : State) : Action → Prop
  | .arrive conn _ => ∃ cpif ∈ s.entries, cpif.ipaddress = Addresses.receiverKey conn
  | _ => True

instance (s : State) : ∀ action, Decidable (Sized s action)
  | .arrive _ _ => inferInstanceAs (Decidable (_ = _))
  | .exchange _ | .setUp .. | .send _ | .sendMsgToReceiver _ | .getMessageFromProcessor =>
      inferInstanceAs (Decidable True)

instance (s : State) : ∀ action, Decidable (Announced s action)
  | .arrive _ _ => inferInstanceAs (Decidable (∃ _, _ ∧ _))
  | .exchange _ | .setUp .. | .send _ | .sendMsgToReceiver _ | .getMessageFromProcessor =>
      inferInstanceAs (Decidable True)

def SameSetUp (own : SelfInfo) (_ : State) : Action → Prop
  | .setUp _ own' _ _ => own' = own
  | _ => True

structure Start (own : Agreement.Side → SelfInfo) (size : Nat) (s : State) : Prop where
  net : Agreement.Start own s.net
  addresses : ∀ si ∈ (s.net.db .b).sysinfo, IsAddress si.ipaddress
  comms : (s.net.db .b).receiversComms = []
  commr : s.commr = .empty
  htable : s.htable = Hash.hcreateTable size
  written : s.written = []
  entries : s.entries = []

def agreed (own : Agreement.Side → SelfInfo) : Int :=
  min (own .b).systemCapacity (own .a).systemCapacity

def Telling (own : Agreement.Side → SelfInfo) (cpif : CapacityInfo) : Prop :=
  cpif.capacity = agreed own ∧ ∃ k : Hash.Key, cpif.ipaddress = k.text

def infoOf (e : Hash.Key × Hash.Value) : CapacityInfo := ⟨(e.2 : Nat), e.1.text⟩

structure Inv (own : Agreement.Side → SelfInfo) (size : Nat) (s : State) : Prop where
  net : Agreement.Inv own s.net
  told : Told (agreed own) (s.net.db .b)
  block : ∀ cpif ∈ s.commr.held 1, Telling own cpif
  table : 0 < agreed own → ∃ puts, Hash.Filled size s.htable puts ∧
    s.entries = puts.map infoOf ∧ ∀ e ∈ puts, ((e.2 : Nat) : Int) = agreed own
  written : ∀ message ∈ s.written, 0 < message.length ∧ (message.length : Int) = agreed own

section Steps

variable {own : Agreement.Side → SelfInfo} {size : Nat} {s t : State}

theorem agreed_range (config : Agreement.Config own) : IsInt4 (agreed own) := by
  unfold agreed
  cases min_choice (own .b).systemCapacity (own .a).systemCapacity with
  | inl first => rw [first]; exact config.capacity .b
  | inr second => rw [second]; exact config.capacity .a

def keyOf {a : Int} (address : IsAddress a) : Hash.Key where
  text := intText a
  noNul zero := absurd (plain_intText a 0 zero) (by decide)
  short := (length_intText_le address.1 (lt_trans address.2 (by decide))).trans (by decide)

theorem told_setDb {net : Agreement.State} {side : Agreement.Side} {result : Sql Db}
    (told : Told (agreed own) (net.db .b))
    (kept : side = .b → ∀ db, result = .ok db → Told (agreed own) db) :
    Told (agreed own) ((net.setDb side result).db .b) := by
  cases result with
  | error e => exact told
  | ok db =>
      cases side with
      | a => exact told
      | b => exact kept rfl db rfl

theorem told_exchange (config : Agreement.Config own) {net net' : Agreement.State}
    (inv : Agreement.Inv own net) (told : Told (agreed own) (net.db .b))
    {action : Agreement.Action} (moved : Agreement.step net action = some net') :
    Told (agreed own) (net'.db .b) := by
  cases action with
  | runJobs side env =>
      obtain rfl := Option.some.inj moved
      refine told_setDb told fun same db done => ?_
      subst same
      exact told_runJobs (config.name .a) (config.capacity .a) (config.name .b).plain
        (config.capacity .b) (inv.sides .b) told done
  | importFile side file =>
      obtain rfl := Option.some.inj moved
      refine told_setDb told fun same db done => ?_
      subst same
      rw [importFile_ok done]
      exact ⟨told.sysinfo, told.handed⟩
  | sendFile side id fileName destination =>
      obtain rfl := Option.some.inj moved
      refine told_setDb told fun same db done => ?_
      subst same
      exact told_only told (sendFile_ok done).1
  | initialSender side si job whole status =>
      simp only [Agreement.step] at moved
      split at moved
      · obtain rfl := Option.some.inj moved
        cases side with
        | a => exact told
        | b => exact told_only told (onlyJobs_update _ _ _)
      · cases moved
  | initialReceiver side id fd data =>
      simp only [Agreement.step] at moved
      split at moved
      · obtain rfl := Option.some.inj moved
        refine told_setDb told fun same db done => ?_
        subst same
        exact told_only told (storeData_ok done).1
      · cases moved

theorem inv_setUp {net : Agreement.State} (inv : Agreement.Inv own net) (root : Uuid)
    {rows : List SysInfo} (files : List File) (unknown : ∀ si ∈ rows, Unknown si) :
    Agreement.Inv own { net with
      db := Function.update net.db .a (configured root (own .a) rows files) } := by
  refine ⟨fun side => ?_, inv.sent⟩
  cases side with
  | b => exact inv.sides .b
  | a =>
      refine ⟨rfl, fun si member => ?_, Agreement.Jobs.of_other fun job member => ?_⟩
      · obtain ⟨plain, capacity, -⟩ := unknown si member
        refine ⟨plain, fun _ value same => .inl ?_⟩
        exact Option.some.inj (same.symm.trans capacity)
      · rw [List.mem_singleton.mp member]
        exact ⟨JState.noConfusion, by unfold Incoming; simp, JState.noConfusion⟩

theorem telling_row (config : Agreement.Config own) {row : ReceiversComm}
    (handed : IsAddress row.rdata1 ∧ row.rdata2 = agreed own) :
    Telling own (Addresses.capacityInfo row) := by
  refine ⟨?_, keyOf handed.1, rfl⟩
  change SenderSide.atoi row.rdata2 = agreed own
  rw [handed.2]
  exact SenderSide.atoi_self (agreed_range config)

theorem inv_sendMsgToReceiver (config : Agreement.Config own) (inv : Inv own size s)
    {rcomid : Nat} (moved : sendMsgToReceiver s rcomid = some t) : Inv own size t := by
  unfold sendMsgToReceiver at moved
  split at moved
  · obtain rfl := Option.some.inj moved
    exact inv
  · next idx free =>
      split at moved
      · obtain rfl := Option.some.inj moved
        exact inv
      · obtain ⟨⟨row, db⟩, chosen, rfl⟩ := Option.map_eq_some_iff.mp moved
        obtain ⟨found, known, pair⟩ := Option.map_eq_some_iff.mp chosen
        obtain ⟨rfl, rfl⟩ := Prod.mk.inj pair
        have member := List.mem_of_find?_eq_some known
        refine ⟨⟨fun side => ?_, inv.net.sent⟩, ?_, fun cpif inside => ?_, inv.table, inv.written⟩
        · cases side with
          | a => exact inv.net.sides .a
          | b =>
              have side := inv.net.sides .b
              exact ⟨side.selfinfo, side.entries, side.jobs⟩
        · exact ⟨inv.told.sysinfo, fun row kept =>
            inv.told.handed row (List.mem_of_mem_filter kept)⟩
        · cases List.mem_cons.mp ((Block.held_write free).mem_iff.mp inside) with
          | inl new => exact new ▸ telling_row config (inv.told.handed found member)
          | inr old => exact inv.block cpif old

theorem inv_getMessageFromProcessor (config : Agreement.Config own) (inv : Inv own size s)
    (moved : getMessageFromProcessor s = some t) : Inv own size t := by
  unfold getMessageFromProcessor at moved
  split at moved
  · obtain rfl := Option.some.inj moved
    exact inv
  · next idx found =>
      obtain ⟨cpif, holds, rest⟩ := Option.bind_eq_some_iff.mp moved
      obtain ⟨⟨status, htable⟩, put, last⟩ := Option.bind_eq_some_iff.mp rest
      obtain rfl := Option.some.inj last
      have perm := Block.held_clear found holds
      obtain ⟨capacity, k, text⟩ := inv.block cpif (perm.mem_iff.mpr List.mem_cons_self)
      refine ⟨inv.net, inv.told, fun other inside => ?_, fun positive => ?_, inv.written⟩
      · exact inv.block other (perm.mem_iff.mpr (List.mem_cons_of_mem cpif inside))
      · obtain ⟨puts, filled, same, values⟩ := inv.table positive
        have range := (agreed_range config).2
        unfold int4Max at range
        let v : Hash.Value := ⟨(agreed own).toNat, by omega⟩
        have value : ((v : Nat) : Int) = agreed own := Int.toNat_of_nonneg positive.le
        rw [text, capacity, ← value] at put
        obtain ⟨htable', taken, -, grown⟩ := Hash.filled_put filled k v
        have stepped : Hash.step s.htable (.put k v) = some htable :=
          congrArg (Option.map Prod.snd) put
        obtain rfl := Option.some.inj (stepped.symm.trans taken)
        by_cases success : status = 0
        · have stored : Hash.stored s.htable (.put k v) = [(k, v)] := by
            rw [Hash.stored, put, success]
            rfl
          rw [stored] at grown
          have info : cpif = infoOf (k, v) := by
            rw [infoOf, value, ← capacity, ← text]
          refine ⟨_, grown, ?_, fun e inside => ?_⟩
          · change (if status = 0 then _ else _) = _
            rw [if_pos success, List.map_append, ← same, info]
            rfl
          · cases List.mem_append.mp inside with
            | inl old => exact values e old
            | inr new =>
                rw [List.mem_singleton.mp new]
                exact value
        · have none : Hash.stored s.htable (.put k v) = [] := by
            rw [Hash.stored, put]
            exact if_neg fun zero => success (Option.some.inj zero)
          rw [none, List.append_nil] at grown
          refine ⟨puts, grown, ?_, values⟩
          change (if status = 0 then _ else _) = _
          rw [if_neg success, same]

theorem inv_send (inv : Inv own size s) {job : Job} (built : Built s job) :
    0 < job.jobdata.length ∧ (job.jobdata.length : Int) = agreed own := by
  obtain ⟨-, -, positive, si, member, named, -, capacity⟩ := built
  rw [(inv.net.sides .b).selfinfo] at named
  have known := ((inv.net.sides .a).entries si member).2 named job.jobdata.length capacity
  refine ⟨positive, ?_⟩
  cases known with
  | inl zero => exact absurd zero (Int.natCast_ne_zero.mpr positive.ne')
  | inr same => exact same.trans (min_comm _ _)

theorem inv_step (config : Agreement.Config own) (inv : Inv own size s) {action : Action}
    (same : SameSetUp (own .a) s action) (moved : step s action = some t) : Inv own size t := by
  cases action with
  | exchange action =>
      obtain ⟨net, exchanged, rfl⟩ := Option.map_eq_some_iff.mp moved
      exact ⟨Agreement.inv_step config inv.net exchanged,
        told_exchange config inv.net inv.told exchanged, inv.block, inv.table, inv.written⟩
  | setUp root own' rows files =>
      simp only [step] at moved
      split at moved
      · next unknown =>
          obtain rfl := Option.some.inj moved
          obtain rfl := same
          exact ⟨inv_setUp inv.net root files unknown, inv.told, inv.block, inv.table, inv.written⟩
      · cases moved
  | send job =>
      simp only [step] at moved
      split at moved
      · next built =>
          obtain rfl := Option.some.inj moved
          refine ⟨inv.net, inv.told, inv.block, inv.table, fun message member => ?_⟩
          cases List.mem_cons.mp member with
          | inl new => exact new ▸ inv_send inv built
          | inr old => exact inv.written message old
      · cases moved
  | sendMsgToReceiver rcomid => exact inv_sendMsgToReceiver config inv moved
  | getMessageFromProcessor => exact inv_getMessageFromProcessor config inv moved
  | arrive conn message =>
      simp only [step] at moved
      split at moved
      · obtain rfl := Option.some.inj moved
        exact ⟨inv.net, inv.told, inv.block, inv.table, fun other member =>
          inv.written other (List.mem_of_mem_erase member)⟩
      · cases moved

theorem inv_start (positive : 0 < size) (small : size < 2 ^ 31) (start : Start own size s) :
    Inv own size s := by
  refine ⟨Agreement.inv_start start.net, ⟨start.addresses, ?_⟩, ?_, fun _ => ⟨[], ?_, ?_, ?_⟩, ?_⟩
  · rw [start.comms]
    exact fun row member => absurd member List.not_mem_nil
  · rw [start.commr, Block.held_empty]
    exact fun cpif member => absurd member List.not_mem_nil
  · rw [start.htable]
    exact Hash.filled_create positive small
  · exact start.entries
  · exact fun e member => absurd member List.not_mem_nil
  · rw [start.written]
    exact fun message member => absurd member List.not_mem_nil

theorem first_iff {puts : List (Hash.Key × Hash.Value)} {capacity : Int} (range : 0 ≤ capacity)
    (values : ∀ e ∈ puts, ((e.2 : Nat) : Int) = capacity) (k : Hash.Key) :
    Hash.first puts k = capacity ↔ ∃ e ∈ puts, e.1 = k := by
  unfold Hash.first
  cases found : puts.find? fun e => e.1 = k with
  | none =>
      have apart := List.find?_eq_none.mp found
      constructor
      · intro same
        change -2 = capacity at same
        omega
      · rintro ⟨e, member, same⟩
        exact absurd (decide_eq_true same) (apart e member)
  | some e =>
      have member := List.mem_of_find?_eq_some found
      have same : e.1 = k := by simpa using List.find?_some found
      exact iff_of_true (values e member) ⟨e, member, same⟩

theorem sized_step (inv : Inv own size s) (action : Action) (moved : step s action = some t) :
    Sized s action ↔ Announced s action := by
  cases action with
  | arrive conn message =>
      simp only [step] at moved
      split at moved
      · next arrives =>
          obtain ⟨positive, length⟩ := inv.written message arrives.1
          have known : 0 < agreed own := by
            rw [← length]
            exact Int.natCast_pos.mpr positive
          obtain ⟨puts, filled, same, values⟩ := inv.table known
          have low := BitVec.le_toInt (Addresses.htonl conn.sockname)
          have high := BitVec.toInt_lt (x := Addresses.htonl conn.sockname)
          have address : IsAddress (Addresses.htonl conn.sockname).toInt :=
            ⟨low, lt_trans high (by decide)⟩
          calc
            Sized s (.arrive conn message) ↔ Hash.first puts (keyOf address) = agreed own := by
              rw [← length]
              change Hash.hget s.htable (keyOf address).text = _ ↔ _
              rw [Hash.filled_get filled, Option.some.injEq]
            _ ↔ ∃ e ∈ puts, e.1 = keyOf address := first_iff known.le values _
            _ ↔ Announced s (.arrive conn message) := by
              simp only [Announced, same, List.mem_map, infoOf]
              constructor
              · rintro ⟨e, member, text⟩
                exact ⟨_, ⟨e, member, rfl⟩, congrArg Hash.Key.text text⟩
              · rintro ⟨_, ⟨e, member, rfl⟩, text⟩
                exact ⟨e, member, Hash.Key.ext text⟩
      · cases moved
  | exchange | setUp | send | sendMsgToReceiver | getMessageFromProcessor => exact Iff.rfl

/-- While `a` keeps its configuration, the receiver takes the right size for a message exactly if
the own address of the connection was announced to it. -/
theorem sized_iff_announced (config : Agreement.Config own) (positive : 0 < size)
    (small : size < 2 ^ 31) (start : Start own size s) {actions : List Action}
    (same : Guarded step (SameSetUp (own .a)) s actions) (done : run step s actions = some t) :
    Guarded step Sized s actions ↔ Guarded step Announced s actions := by
  apply guarded_iff _ _ (inv_start positive small start) same done
  · exact fun _ _ _ kept allowed moved => inv_step config kept allowed moved
  · exact fun _ action _ kept moved => sized_step kept action moved

end Steps

def sampleOwn (address : Int) : Agreement.Side → SelfInfo
  | .a => ⟨ascii "   M3", 2130706433, 6001, 200⟩
  | .b => ⟨ascii "   M1", address, 6101, 65536⟩

def sampleStart (address : Int) : State where
  net := {
    db := fun
      | .a => configured (Uuid.ofNat 0) (sampleOwn address .a)
          [⟨ascii "   M1", address, some 0, 7000, some 0⟩] [⟨ascii "f", [1]⟩]
      | .b => Db.installed (Uuid.ofNat 0) (sampleOwn address .b)
    sent := fun _ => [] }
  commr := .empty
  htable := Hash.hcreateTable 1000
  written := []
  entries := []

def consensusRow (address : Int) (n statement : Nat) (type : String) (me : Agreement.Side) : Job :=
  match consensusJob (Lengths.envFrom n) ((Lengths.envFrom n).uuid statement 0) (ascii type) 200
    (sampleOwn address me) (sampleOwn address me.other).systemName (Uuid.ofNat 0) with
  | .ok job => job
  | .error _ => ⟨Uuid.ofNat 0, [], .D, [], [], Uuid.ofNat 0, [], []⟩

def exchanged (address : Int) : List Action :=
  let request := consensusRow address 1000 0 "4" .a
  let reply := consensusRow address 2000 1 "5" .b
  [.exchange (.sendFile .a (Uuid.ofNat 1) (ascii "f") (ascii "M1")),
    .exchange (.runJobs .a (Lengths.envFrom 1000)),
    .exchange (.initialSender .a ⟨ascii "   M1", address, some 0, 7000, some 0⟩ request true 147),
    .exchange (.initialReceiver .b (Uuid.ofNat 2) 5 request.jobdata),
    .exchange (.runJobs .b (Lengths.envFrom 2000)), .sendMsgToReceiver 1, .getMessageFromProcessor,
    .exchange (.initialSender .b ⟨ascii "   M3", 2130706433, some 6001, 7000, some 200⟩ reply true
      147),
    .exchange (.initialReceiver .a (Uuid.ofNat 3) 5 reply.jobdata),
    .exchange (.runJobs .a (Lengths.envFrom 3000))]

def readyJob (address : Int) : Job :=
  (((run step (sampleStart address) (exchanged address)).map fun t =>
    (t.net.db .a).jobScheduler).bind List.getLast?).getD
      ⟨Uuid.ofNat 0, [], .D, [], [], Uuid.ofNat 0, [], []⟩

def delivered (address : Int) : List Action :=
  let conn : Addresses.Inbound := ⟨Addresses.htonl (BitVec.ofInt 32 address),
    Addresses.htonl (BitVec.ofInt 32 2130706433)⟩
  exchanged address ++ [.send (readyJob address), .arrive conn (readyJob address).jobdata]

theorem sample_config (address : Int) : Agreement.Config (sampleOwn address) := by
  constructor
  · intro side
    cases side with
    | a =>
        change IsName (ascii "   M3")
        exact ⟨rfl, by decide, by decide⟩
    | b =>
        change IsName (ascii "   M1")
        exact ⟨rfl, by decide, by decide⟩
  · intro side
    cases side with
    | a =>
        change IsInt4 200
        decide
    | b =>
        change IsInt4 65536
        decide

theorem sample_start (address : Int) :
    Start (sampleOwn address) 1000 (sampleStart address) where
  net := by
    constructor
    · exact fun side => by cases side <;> rfl
    · intro side job member
      cases side with
      | a =>
          rw [List.mem_singleton.mp member]
          exact ⟨JState.noConfusion, by unfold Incoming; simp, JState.noConfusion⟩
      | b =>
          rw [List.mem_singleton.mp member]
          exact ⟨JState.noConfusion, by unfold Incoming; simp, JState.noConfusion⟩
    · intro side si member
      cases side with
      | a =>
          rw [List.mem_singleton.mp member]
          change Plain (ascii "   M1")
          decide
      | b => cases member
    · intro side si member _
      cases side with
      | a =>
          rw [List.mem_singleton.mp member]
          exact ⟨rfl, rfl⟩
      | b => cases member
    · exact fun _ => rfl
  addresses := fun si member => absurd member List.not_mem_nil
  comms := rfl
  commr := rfl
  htable := by rw [sampleStart]
  written := rfl
  entries := rfl

theorem sample_same (address : Int) : Guarded step (SameSetUp (sampleOwn address .a))
    (sampleStart address) (delivered address) := by
  simp [delivered, exchanged, Guarded, SameSetUp]

theorem sized_loopback : ∃ t, run step (sampleStart 2130706433) (delivered 2130706433) = some t ∧
    Guarded step Sized (sampleStart 2130706433) (delivered 2130706433) := by
  have ends : (run step (sampleStart 2130706433) (delivered 2130706433)).isSome = true := by
    decide +kernel
  obtain ⟨t, done⟩ := Option.isSome_iff_exists.mp ends
  refine ⟨t, done, (sized_iff_announced (sample_config _) (by decide) (by decide)
    (sample_start _) (sample_same _) done).mpr ?_⟩
  decide +kernel

/-- The table has the address of M3, and the connection the one of M1. -/
theorem not_sized_elsewhere : Start (sampleOwn 16843009) 1000 (sampleStart 16843009) ∧
    ∃ t, run step (sampleStart 16843009) (delivered 16843009) = some t ∧
      ¬ Guarded step Sized (sampleStart 16843009) (delivered 16843009) := by
  have ends : (run step (sampleStart 16843009) (delivered 16843009)).isSome = true := by
    decide +kernel
  obtain ⟨t, done⟩ := Option.isSome_iff_exists.mp ends
  exact ⟨sample_start _, t, done, by decide +kernel⟩

end Arrivals

end FileSharing
