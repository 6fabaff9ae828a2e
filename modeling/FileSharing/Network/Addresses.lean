import FileSharing.Sender.System

/-! The address of a peer in the programs: in `senders_comms`, in the commands and statuses of
`processor_s` and `sender`, in the sockets, and as a key of the receiver's hash table. -/

namespace FileSharing

open SenderSide

namespace Addresses

/-- `htonl` and `ntohl` on a little-endian host. -/
def htonl (a : BitVec 32) : BitVec 32 :=
  a.extractLsb' 0 8 ++ a.extractLsb' 8 8 ++ a.extractLsb' 16 8 ++ a.extractLsb' 24 8

/-- The address that an `in_addr`, in network byte order, stands for. -/
def addressOf (sinAddr : BitVec 32) : Int := (htonl sinAddr).toNat

def createConnection (opncn : OpenConnection) : BitVec 32 := htonl (BitVec.ofInt 32 opncn.ipaddress)

/-- The buffer `ipaddress` of `store_comms_into_database`. -/
def ipaddressSize : Nat := 11

/-- `sprintf(ipaddress, "%d", cncsts->ipaddress)`. -/
def ipaddressText (cncsts : ConnectionStatus) : Text := intText cncsts.ipaddress

def InBuffer (cncsts : ConnectionStatus) : Prop := (ipaddressText cncsts).length < ipaddressSize

def Selects (cncsts : ConnectionStatus) (a : Int) : Prop :=
  ∃ n, int8in (ipaddressText cncsts) = .ok n ∧ ∀ sc : SendingConn, sc.sipaddr = n ↔ sc.sipaddr = a

/-- An accepted connection: what `getsockname` and `getpeername` return. -/
structure Inbound where
  sockname : BitVec 32
  peername : BitVec 32

/-- The key in `run_receiver`. -/
def receiverKey (conn : Inbound) : Text := intText (htonl conn.sockname).toInt

def capacityInfo (row : ReceiversComm) : CapacityInfo := ⟨atoi row.rdata2, intText row.rdata1⟩

/-- The address of a system in the four programs. -/
structure Agrees (a : Int) (command : SendersComm) (fd : Int) (conn : Inbound)
    (row : ReceiversComm) : Prop where
  connects : ∃ opncn, commandOf command = .openConn opncn ∧ addressOf (createConnection opncn) = a
  fits : ∀ opncn, commandOf command = .openConn opncn →
    InBuffer ⟨fd, opncn.ipaddress, opncn.scommid⟩
  selects : ∀ opncn, commandOf command = .openConn opncn →
    Selects ⟨fd, opncn.ipaddress, opncn.scommid⟩ a
  key : receiverKey conn = (capacityInfo row).ipaddress

theorem getLsbD_htonl (a : BitVec 32) {i : Nat} (bound : i < 32) :
    (htonl a).getLsbD i = a.getLsbD (i + 24 - 16 * (i / 8)) := by
  unfold htonl
  simp only [BitVec.getLsbD_append, BitVec.getLsbD_extractLsb']
  -- one case for each byte
  rcases (by omega : i < 8 ∨ (8 ≤ i ∧ i < 16) ∨ (16 ≤ i ∧ i < 24) ∨ 24 ≤ i) with
    first | second | third | fourth
  · simp [first, show i + 24 - 16 * (i / 8) = 24 + i by omega]
  · simp [show ¬ i < 8 by omega, show i - 8 < 8 by omega,
      show i + 24 - 16 * (i / 8) = 16 + (i - 8) by omega]
  · simp [show ¬ i < 8 by omega, show ¬ i - 8 < 8 by omega, show i - 8 - 8 < 8 by omega,
      show i + 24 - 16 * (i / 8) = 8 + (i - 8 - 8) by omega]
  · simp [show ¬ i < 8 by omega, show ¬ i - 8 < 8 by omega, show ¬ i - 8 - 8 < 8 by omega,
      show i - 8 - 8 - 8 < 8 by omega, show i + 24 - 16 * (i / 8) = i - 8 - 8 - 8 by omega]

theorem htonl_htonl (a : BitVec 32) : htonl (htonl a) = a := by
  apply BitVec.eq_of_getLsbD_eq
  intro i bound
  rw [getLsbD_htonl _ bound, getLsbD_htonl _ (by omega)]
  congr 1
  omega

theorem addressOf_htonl {a : Int} (range : 0 ≤ a ∧ a < 2 ^ 32) :
    addressOf (htonl (BitVec.ofInt 32 a)) = a := by
  rw [addressOf, htonl_htonl, BitVec.toNat_ofInt]
  omega

theorem addressOf_range (sinAddr : BitVec 32) : 0 ≤ addressOf sinAddr ∧ addressOf sinAddr < 2 ^ 32 := by
  have bound := (htonl sinAddr).isLt
  unfold addressOf
  omega

theorem atoi_eq_iff {a : Int} (range : 0 ≤ a ∧ a < 2 ^ 32) : atoi a = a ↔ a < 2 ^ 31 := by
  have value := BitVec.toInt_eq_toNat_cond (BitVec.ofInt 32 a)
  rw [BitVec.toNat_ofInt] at value
  unfold atoi
  split at value <;> omega

theorem intText_injective {m n : Int} (same : intText m = intText n) : m = n := by
  have left := integerIn_intText m 0
  have right := integerIn_intText n 0
  rw [same] at left
  exact Option.some.inj (left.symm.trans right)

theorem int8in_intText {n : Int} (low : -2 ^ 63 ≤ n) (high : n ≤ 2 ^ 63 - 1) :
    int8in (intText n) = .ok n := by
  have read : integerIn (intText n) = some n := integerIn_intText n 0
  simp only [int8in, read, int8, if_pos (And.intro low high)]

theorem selects_iff {cncsts : ConnectionStatus} {a : Int} (low : -2 ^ 63 ≤ cncsts.ipaddress)
    (high : cncsts.ipaddress ≤ 2 ^ 63 - 1) : Selects cncsts a ↔ cncsts.ipaddress = a := by
  constructor
  · rintro ⟨n, read, rows⟩
    obtain rfl := Except.ok.inj ((int8in_intText low high).symm.trans read)
    exact (rows ⟨0, cncsts.ipaddress, 0⟩).mp rfl
  · rintro rfl
    exact ⟨cncsts.ipaddress, int8in_intText low high, fun _ => Iff.rfl⟩

theorem receiverKey_iff {conn : Inbound} {row : ReceiversComm} (low : 0 ≤ row.rdata1) :
    receiverKey conn = (capacityInfo row).ipaddress ↔
      row.rdata1 < 2 ^ 31 ∧ addressOf conn.sockname = row.rdata1 := by
  have bound := (htonl conn.sockname).isLt
  have value := BitVec.toInt_eq_toNat_cond (htonl conn.sockname)
  unfold addressOf
  calc
    receiverKey conn = (capacityInfo row).ipaddress ↔
        (htonl conn.sockname).toInt = row.rdata1 :=
      ⟨intText_injective, fun same => congrArg intText same⟩
    _ ↔ row.rdata1 < 2 ^ 31 ∧ ((htonl conn.sockname).toNat : Int) = row.rdata1 := by
      split at value <;> omega

section Iff

variable {a : Int} {command : SendersComm} {conn : Inbound} {row : ReceiversComm}

theorem commandOf_open {opncn : OpenConnection} (type : command.mtype = .openConn)
    (made : commandOf command = .openConn opncn) : opncn.ipaddress = atoi command.mdata1 := by
  rw [commandOf, if_pos type] at made
  rw [← SenderComm.openConn.inj made]

theorem createConnection_address (range : 0 ≤ a ∧ a < 2 ^ 32) {opncn : OpenConnection}
    (sent : opncn.ipaddress = atoi a) : addressOf (createConnection opncn) = a := by
  rw [createConnection, sent, atoi, BitVec.ofInt_toInt, addressOf_htonl range]

/-- The status selects the row, from its buffer, for the addresses below 2 ^ 31 only. -/
theorem status_iff (range : 0 ≤ a ∧ a < 2 ^ 32) {cncsts : ConnectionStatus}
    (sent : cncsts.ipaddress = atoi a) :
    InBuffer cncsts ∧ Selects cncsts a ↔ a < 2 ^ 31 := by
  have low : -2 ^ 31 ≤ atoi a := BitVec.le_toInt _
  have high : atoi a < 2 ^ 31 := BitVec.toInt_lt
  rw [selects_iff (by omega) (by omega), sent, atoi_eq_iff range, and_iff_right_iff_imp]
  intro small
  have digits : (natText a.natAbs).length ≤ 10 := length_natText_le (by decide) (by omega)
  rw [InBuffer, ipaddressText, sent, (atoi_eq_iff range).mpr small, intText, if_neg (by omega),
    ipaddressSize]
  omega

/-- The four programs agree about the address of a peer exactly if it is below 2 ^ 31 and the
peer connected to the same address of the own host. -/
theorem addresses_agree_iff (fd : Int) (type : command.mtype = .openConn)
    (sent : command.mdata1 = a) (stored : row.rdata1 = a) (remote : addressOf conn.peername = a) :
    Agrees a command fd conn row ↔ a < 2 ^ 31 ∧ addressOf conn.sockname = a := by
  have range : 0 ≤ a ∧ a < 2 ^ 32 := remote ▸ addressOf_range conn.peername
  have made : commandOf command =
      .openConn ⟨atoi command.mdata2, atoi command.mdata1, command.scommid⟩ := by
    rw [commandOf, if_pos type]
  have status {opncn : OpenConnection} (made : commandOf command = .openConn opncn) :
      InBuffer ⟨fd, opncn.ipaddress, opncn.scommid⟩ ∧
        Selects ⟨fd, opncn.ipaddress, opncn.scommid⟩ a ↔ a < 2 ^ 31 :=
    status_iff range (sent ▸ commandOf_open type made)
  have key : receiverKey conn = (capacityInfo row).ipaddress ↔
      a < 2 ^ 31 ∧ addressOf conn.sockname = a := by
    rw [receiverKey_iff (stored ▸ range.1), stored]
  constructor
  · exact fun agrees => key.mp agrees.key
  · intro good
    constructor
    · exact ⟨_, made, createConnection_address range (congrArg atoi sent)⟩
    · exact fun opncn made => ((status made).mpr good.1).1
    · exact fun opncn made => ((status made).mpr good.1).2
    · exact key.mpr good

def loopback : Inbound := ⟨htonl 2130706433#32, htonl 2130706433#32⟩

theorem loopback_agrees :
    Agrees 2130706433 ⟨1, 2130706433, 6101, .openConn⟩ 5 loopback ⟨1, 2130706433, 1000⟩ := by
  have remote : addressOf loopback.peername = 2130706433 := by decide
  have own : addressOf loopback.sockname = 2130706433 := by decide
  have small : (2130706433 : Int) < 2 ^ 31 := by decide
  exact Iff.mpr (addresses_agree_iff 5 rfl rfl rfl remote) ⟨small, own⟩

def privateNetwork : Inbound := ⟨htonl 3232235778#32, htonl 3232235777#32⟩

/-- The status of its connection selects no row, and the receiver looks up another key. -/
theorem private_address_lost :
    commandOf ⟨1, 3232235777, 6101, .openConn⟩ = .openConn ⟨6101, -1062731519, 1⟩ ∧
      ¬ InBuffer ⟨5, -1062731519, 1⟩ ∧ ¬ Selects ⟨5, -1062731519, 1⟩ 3232235777 ∧
      receiverKey privateNetwork = ascii "-1062731518" ∧
      (capacityInfo ⟨1, 3232235777, 1000⟩).ipaddress = ascii "3232235777" ∧
      ¬ Agrees 3232235777 ⟨1, 3232235777, 6101, .openConn⟩ 5 privateNetwork
        ⟨1, 3232235777, 1000⟩ := by
  have command : commandOf ⟨1, 3232235777, 6101, .openConn⟩ = .openConn ⟨6101, -1062731519, 1⟩ := by
    decide
  have outside : ¬ InBuffer ⟨5, -1062731519, 1⟩ := by
    unfold InBuffer
    decide
  have other : ¬ Selects ⟨5, -1062731519, 1⟩ 3232235777 := by
    rw [selects_iff (by decide) (by decide)]
    decide
  exact ⟨command, outside, other, by decide, by decide,
    fun agrees => outside (agrees.fits _ command)⟩

end Iff

end Addresses

end FileSharing
