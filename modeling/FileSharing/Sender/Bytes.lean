import FileSharing.Library.Bisimulations
import FileSharing.Network.Addresses
import FileSharing.Sender.Descriptors
import FileSharing.Sender.Giving
import FileSharing.Sender.System
import FileSharing.Shared.Refinement

/-! The sending side on the bytes of its two blocks: `processor_s` and `sender` write and read
the fields of the structures of `partition.h` at their offsets. -/

namespace FileSharing

open Library

namespace SenderBytes

open SenderSide (ProcessorS Sender Socket Action)
open Bitmap (Channel getSubblock toggleBit Within)
open Giving (intBytes putInfo putData length_intBytes)

def cpartitionSize : Nat := 50

def commsBlock : Channel := ⟨3, cpartitionSize, cpartitionSize, le_rfl⟩

def datasBlock : Channel := ⟨3, Giving.dpartitionSize, Giving.dpartitionSize, le_rfl⟩

/-- `*(int *)a`. -/
def intAt (m : Memory) (a : Nat) : Int :=
  (BitVec.ofNat 32 ((m a).toNat + 2 ^ 8 * (m (a + 1)).toNat + 2 ^ 16 * (m (a + 2)).toNat +
    2 ^ 24 * (m (a + 3)).toNat)).toInt

/-- `uuid[37]` as the text of a parameter: `id[36]` is set to 0. -/
def uuidAt (m : Memory) (a : Nat) : Sql Uuid := uuidIn ((slice m a 36).takeWhile (· ≠ 0))

def openConnectionAt (m : Memory) (a : Nat) : OpenConnection :=
  ⟨intAt m (a + 4), intAt m (a + 8), (intAt m (a + 12)).toNat⟩

def closeConnectionAt (m : Memory) (a : Nat) : CloseConnection :=
  ⟨intAt m (a + 4), intAt m (a + 8), (intAt m (a + 12)).toNat⟩

def connectionStatusAt (m : Memory) (a : Nat) : ConnectionStatus :=
  ⟨intAt m (a + 4), intAt m (a + 8), (intAt m (a + 12)).toNat⟩

/-- `send_message` ends at 45 + 131072, and the partition one byte later. -/
def sendMessageAt (m : Memory) (a : Nat) : Sql SendMessage := do
  let uuid ← uuidAt m (a + 8)
  let size := (intAt m a).toNat
  return ⟨size, intAt m (a + 4), uuid, slice m (a + 45) size⟩

/-- The fields of `open_connection` or of `close_connection`, in the order of the source. -/
def putCommand (m : Memory) (base : Nat) (row : SendersComm) : Memory :=
  let type := if row.mtype = .openConn then 1 else 2
  let m := copyTo m base (intBytes type)
  let m := copyTo m (base + 8) (intBytes (SenderSide.atoi row.mdata1))
  let m := copyTo m (base + 4) (intBytes (SenderSide.atoi row.mdata2))
  copyTo m (base + 12) (intBytes (SenderSide.atoi row.scommid))

def connectionStatusBytes (cncsts : ConnectionStatus) : Bytea :=
  intBytes 3 ++ intBytes cncsts.fd ++ intBytes cncsts.ipaddress ++ intBytes cncsts.scommid

/-- The structure was cleared, and has three bytes behind its last field. -/
def messageStatusBytes (msgsts : MessageStatus) : Bytea :=
  intBytes 4 ++ intBytes msgsts.status ++ (msgsts.uuid.text ++ [0]) ++ List.replicate 3 0

structure State where
  datas : Memory
  comms : Memory
  semLockSigs : Nat
  semLockSigps : Nat
  processorS : ProcessorS
  sender : Sender
  sockets : Int → Option Socket
  db : Db

/-- `store_comms_into_database` of a message status; it does nothing if the text is no UUID. -/
def storeStatus (m : Memory) (base : Nat) (db : Db) : Db :=
  match uuidAt m (base + 8) with
  | .ok id => db.updateStatus id (intAt m (base + 4) % 256)
  | .error _ => db

instance (cncsts : ConnectionStatus) : Decidable (Addresses.InBuffer cncsts) :=
  inferInstanceAs (Decidable (_ < _))

/-- The text of an address that is too long for `ipaddress` is written over other variables,
and then nothing is said about the outcome. -/
def readMsg (s : State) : Option State :=
  let position := getSubblock s.comms true 2
  if 0 ≤ position then
    let idx := position.toNat
    let blkptr := commsBlock.blkptr idx
    let cncsts := connectionStatusAt s.comms blkptr
    if intAt s.comms blkptr = 3 then
      if Addresses.InBuffer cncsts then some { s with
        processorS := .deleting idx cncsts.scommid
        db := s.db.sUpdateConns cncsts.ipaddress cncsts.fd (if cncsts.fd ≥ 0 then 2 else 1) }
      else none
    else some { s with
      comms := toggleBit idx s.comms
      processorS := .commanding
      db := if intAt s.comms blkptr = 4 then storeStatus s.comms blkptr s.db else s.db }
  else some { s with processorS := .commanding }

def sendMsg (s : State) (choice : Nat) : Option State :=
  let position := getSubblock s.comms false 1
  if 0 ≤ position then
    let blkptr := commsBlock.blkptr position.toNat
    let cleared := copyTo s.comms blkptr (List.replicate cpartitionSize 0)
    match SenderSide.commands s.db with
    | [] => some { s with comms := cleared, processorS := .giving }
    | rows => (rows[choice]?).map fun row => { s with
        comms := putCommand cleared blkptr row, processorS := .marking position.toNat row }
  else some { s with processorS := .giving }

def giveData (s : State) (choice : Nat) : Option State :=
  let position := getSubblock s.datas false 3
  if 0 ≤ position then
    let blkptr := datasBlock.blkptr position.toNat
    let cleared := copyTo s.datas blkptr (List.replicate Giving.dpartitionSize 0)
    (SenderSide.firstInfo s.db choice).map fun found =>
      match found with
      | none => { s with datas := cleared, processorS := .waiting }
      | some (sc, js) => { s with
          datas := toggleBit position.toNat (putData (putInfo cleared blkptr sc js) blkptr js)
          semLockSigs := s.semLockSigs + 1
          processorS := .waiting
          db := s.db.appendW js.jobid }
  else some { s with processorS := .waiting }

def getMessage (s : State) : State :=
  let position := getSubblock s.comms true 1
  if 0 ≤ position then
    let data := commsBlock.blkptr position.toNat
    { s with
      comms := toggleBit position.toNat s.comms
      sender :=
        if intAt s.comms data = 1 then .executing (.openConn (openConnectionAt s.comms data))
        else if intAt s.comms data = 2 then .executing (.closeConn (closeConnectionAt s.comms data))
        else .fetching }
  else { s with sender := .fetching }

def getData (s : State) : State :=
  let position := getSubblock s.datas true 3
  if 0 ≤ position then { s with
    datas := toggleBit position.toNat s.datas
    sender := match sendMessageAt s.datas (datasBlock.blkptr position.toNat) with
      | .ok sndmsg => .sending sndmsg 0
      | .error _ => .waiting }
  else { s with sender := .waiting }

def sendMessageToProcessor (s : State) (bytes : Bytea) (next : Sender) : State :=
  let position := getSubblock s.comms false 2
  if 0 ≤ position then
    let blkptr := commsBlock.blkptr position.toNat
    let cleared := copyTo s.comms blkptr (List.replicate cpartitionSize 0)
    { s with
      comms := toggleBit position.toNat (copyTo cleared blkptr bytes)
      semLockSigps := s.semLockSigps + 1
      sender := next }
  else { s with sender := next }

def connect (s : State) (opncn : OpenConnection) (fd : Option Int) (established : Bool) :
    Option State :=
  match fd with
  | none => some { s with sender := .reporting ⟨-1, opncn.ipaddress, opncn.scommid⟩ }
  | some fd =>
      if 0 ≤ fd ∧ fd ≤ int4Max ∧ s.sockets fd = none then some { s with
        sockets := Function.update s.sockets fd
          (some (if established then .connected opncn.ipaddress else .failed))
        sender := .reporting ⟨if established then fd else -1, opncn.ipaddress, opncn.scommid⟩ }
      else none

def sendTurn (s : State) (sndmsg : SendMessage) (totalDataSent dataSent : Int) : State :=
  let total := totalDataSent + dataSent
  if total < sndmsg.size ∧ dataSent ≠ 0 then { s with sender := .sending sndmsg total }
  else { s with sender := .settling ⟨if total < sndmsg.size then 0 else 1, sndmsg.uuid⟩ }

def step (s : State) : Action → Option State
  | .signal => some { s with semLockSigps := s.semLockSigps + 1 }
  | .waitSigps =>
      match s.processorS, s.semLockSigps with
      | .waiting, sigps + 1 => some { s with semLockSigps := sigps, processorS := .reading }
      | _, _ => none
  | .readMsg =>
      match s.processorS with
      | .reading => readMsg s
      | _ => none
  | .deleteComms =>
      match s.processorS with
      | .deleting idx scommid => some { s with
          comms := toggleBit idx s.comms
          processorS := .commanding
          db := s.db.sDeleteComms scommid }
      | _ => none
  | .sendMsg choice =>
      match s.processorS with
      | .commanding => sendMsg s choice
      | _ => none
  | .updateComms =>
      match s.processorS with
      | .marking idx row => some { s with
          comms := toggleBit idx s.comms
          semLockSigs := s.semLockSigs + 1
          processorS := .giving
          db := s.db.sUpdateComms row.scommid }
      | _ => none
  | .giveData choice =>
      match s.processorS with
      | .giving => giveData s choice
      | _ => none
  | .waitSigs =>
      match s.sender, s.semLockSigs with
      | .waiting, sigs + 1 => some { s with semLockSigs := sigs, sender := .receiving }
      | _, _ => none
  | .getMessage =>
      match s.sender, s.processorS.locksComms with
      | .receiving, false => some (getMessage s)
      | _, _ => none
  | .connect fd established =>
      match s.sender with
      | .executing (.openConn opncn) => connect s opncn fd established
      | _ => none
  | .close =>
      match s.sender with
      | .executing (.closeConn clscn) => some { s with
          sockets := Function.update s.sockets clscn.fd none
          sender := .reporting ⟨-1, clscn.ipaddress, clscn.scommid⟩ }
      | _ => none
  | .reportConnection =>
      match s.sender, s.processorS.locksComms with
      | .reporting cncsts, false =>
          some (sendMessageToProcessor s (connectionStatusBytes cncsts) .fetching)
      | _, _ => none
  | .getData =>
      match s.sender with
      | .fetching => some (getData s)
      | _ => none
  | .send dataSent =>
      match s.sender with
      | .sending sndmsg total =>
          if -1 ≤ dataSent ∧ dataSent ≤ sndmsg.size then some (sendTurn s sndmsg total dataSent)
          else none
      | _ => none
  | .reportMessage =>
      match s.sender, s.processorS.locksComms with
      | .settling msgsts, false =>
          some (sendMessageToProcessor s (messageStatusBytes msgsts) .waiting)
      | _, _ => none
  | .database op =>
      if SenderSide.others s.db op then (s.db.perform op).map fun db => { s with db := db } else none

def initial (db : Db) (sigs sigps : Nat) : State :=
  ⟨fun _ => 0, fun _ => 0, sigs, sigps, .waiting, .waiting, fun _ => none, db⟩

def HoldsComm (m : Memory) (base : Nat) : SenderComm → Prop
  | .openConn opncn => intAt m base = 1 ∧ openConnectionAt m base = opncn
  | .closeConn clscn => intAt m base = 2 ∧ closeConnectionAt m base = clscn
  | .connection cncsts => intAt m base = 3 ∧ connectionStatusAt m base = cncsts
  | .message msgsts => intAt m base = 4 ∧ intAt m (base + 4) = msgsts.status ∧
      uuidAt m (base + 8) = .ok msgsts.uuid

def HoldsData (m : Memory) (base : Nat) (sndmsg : SendMessage) : Prop :=
  sendMessageAt m base = .ok sndmsg ∧ sndmsg.size ≤ messageSize

section Fields

variable {m m' : Memory} {a base : Nat}

theorem slice_byte {i count : Nat} {bytes : List UInt8} (same : slice m a count = bytes)
    (inside : i < count) : bytes[i]? = some (m (a + i)) := by
  rw [← same]
  simp [slice, inside]

theorem intAt_of_slice {n : Int} (same : slice m a 4 = intBytes n) :
    intAt m a = SenderSide.atoi n := by
  let word := BitVec.ofInt 32 n
  have byte (k : Nat) (inside : k < 4) : (m (a + k)).toNat = word.toNat / 2 ^ (8 * k) % 2 ^ 8 := by
    have stored := slice_byte same inside
    have other : (intBytes n)[k]? = some ⟨word.extractLsb' (8 * k) 8⟩ := by
      simp [intBytes, inside, word]
    rw [← Option.some.inj (other.symm.trans stored)]
    change (word.extractLsb' (8 * k) 8).toNat = _
    rw [BitVec.extractLsb'_toNat, Nat.shiftRight_eq_div_pow]
  have b0 := byte 0 (by decide)
  have b1 := byte 1 (by decide)
  have b2 := byte 2 (by decide)
  have b3 := byte 3 (by decide)
  have bound := word.isLt
  have sum : (m a).toNat + 2 ^ 8 * (m (a + 1)).toNat + 2 ^ 16 * (m (a + 2)).toNat +
      2 ^ 24 * (m (a + 3)).toNat = word.toNat := by
    simp only [Nat.add_zero, Nat.mul_zero, Nat.reduceMul, Nat.reducePow] at b0 b1 b2 b3 bound ⊢
    omega
  rw [intAt, sum, BitVec.ofNat_toNat, BitVec.setWidth_eq]
  rfl

theorem uuidAt_of_slice {id : Uuid} (same : slice m a 37 = id.text ++ [0]) :
    uuidAt m a = .ok id := by
  have text : slice m a 36 = id.text := by
    apply List.ext_getElem
    · rw [length_slice, id.length]
    · intro i low high
      have inside : i < 36 := id.length ▸ high
      have stored := slice_byte same (show i < 37 by omega)
      rw [List.getElem?_append_left high, List.getElem?_eq_getElem high] at stored
      rw [Option.some.inj stored]
      simp [slice]
  have free : id.text.takeWhile (· ≠ 0) = id.text := by
    rw [List.takeWhile_eq_self_iff]
    intro c member
    have known := id.bytes c member
    rw [decide_eq_true_eq]
    rintro rfl
    cases known
  rw [uuidAt, text, free, uuidIn_text]

/-- A field is read back wherever its bytes are. -/
theorem intAt_moved {n : Memory} {b : Nat} (moved : ∀ i < 4, m (a + i) = n (b + i)) :
    intAt m a = intAt n b := by
  have first := moved 0 (by decide)
  rw [Nat.add_zero, Nat.add_zero] at first
  rw [intAt, intAt, first, moved 1 (by decide), moved 2 (by decide), moved 3 (by decide)]

theorem intAt_congr (same : ∀ i < 4, m' (a + i) = m (a + i)) : intAt m' a = intAt m a :=
  intAt_moved same

theorem uuidAt_congr (same : ∀ i < 36, m' (a + i) = m (a + i)) : uuidAt m' a = uuidAt m a := by
  have bytes : slice m' a 36 = slice m a 36 := by
    apply slice_congr
    intro i low high
    have place := same (i - a) (by omega)
    rwa [Nat.add_sub_cancel' low] at place
  rw [uuidAt, uuidAt, bytes]

theorem intAt_range (m : Memory) (a : Nat) : IsInt4 (intAt m a) := by
  have range := SenderSide.atoi_range (intAt m a)
  rwa [SenderSide.atoi, intAt, BitVec.ofInt_toInt] at range

theorem local_comm : Bitmap.Local commsBlock HoldsComm := by
  intro m m' base record same held
  have int (k : Nat) (inside : k + 4 ≤ 50) : intAt m' (base + k) = intAt m (base + k) := by
    apply intAt_congr
    intro i small
    exact same _ (by omega) (by change _ < base + 50; omega)
  have type : intAt m' base = intAt m base := int 0 (by decide)
  have four := int 4 (by decide)
  have eight := int 8 (by decide)
  have twelve := int 12 (by decide)
  have uuid : uuidAt m' (base + 8) = uuidAt m (base + 8) := by
    apply uuidAt_congr
    intro i small
    exact same _ (by omega) (by change _ < base + 50; omega)
  cases record with
  | openConn opncn =>
      simpa only [HoldsComm, openConnectionAt, type, four, eight, twelve] using held
  | closeConn clscn =>
      simpa only [HoldsComm, closeConnectionAt, type, four, eight, twelve] using held
  | connection cncsts =>
      simpa only [HoldsComm, connectionStatusAt, type, four, eight, twelve] using held
  | message msgsts => simpa only [HoldsComm, type, four, uuid] using held

theorem sendMessageAt_ok {sndmsg : SendMessage} (read : sendMessageAt m base = .ok sndmsg) :
    uuidAt m (base + 8) = .ok sndmsg.uuid ∧ sndmsg.size = (intAt m base).toNat ∧
      sndmsg.fd = intAt m (base + 4) ∧ sndmsg.data = slice m (base + 45) sndmsg.size := by
  obtain ⟨uuid, found, rest⟩ := bind_ok.mp read
  obtain rfl := pure_ok.mp rest
  exact ⟨found, rfl, rfl, rfl⟩

theorem local_data : Bitmap.Local datasBlock HoldsData := by
  intro m m' base sndmsg same held
  obtain ⟨read, fits⟩ := held
  have room : datasBlock.partition = 131118 := rfl
  have most : messageSize = 131072 := rfl
  have size : intAt m' base = intAt m base := by
    apply intAt_congr
    intro i small
    exact same _ (by omega) (by omega)
  have fd : intAt m' (base + 4) = intAt m (base + 4) := by
    apply intAt_congr
    intro i small
    exact same _ (by omega) (by omega)
  have uuid : uuidAt m' (base + 8) = uuidAt m (base + 8) := by
    apply uuidAt_congr
    intro i small
    exact same _ (by omega) (by omega)
  have data : slice m' (base + 45) (intAt m base).toNat = slice m (base + 45) (intAt m base).toNat := by
    have length := (sendMessageAt_ok read).2.1
    apply slice_congr
    intro i low high
    exact same _ (by omega) (by omega)
  have bytes : sendMessageAt m' base = sendMessageAt m base := by
    simp only [sendMessageAt, size, fd, uuid, data]
  exact ⟨bytes.trans read, fits⟩

end Fields

section Puts

variable {m : Memory} {base idx : Nat}

/-- The number of a command comes from a sequence of `INTEGER`. -/
def IsSerial (n : Nat) : Prop := (n : Int) ≤ int4Max

theorem IsSerial.atoi {n : Nat} (serial : IsSerial n) : SenderSide.atoi n = n := by
  apply SenderSide.atoi_self
  unfold IsSerial at serial
  unfold IsInt4 int4Min
  omega

theorem intAt_copyTo (m : Memory) (a : Nat) (n : Int) :
    intAt (copyTo m a (intBytes n)) a = SenderSide.atoi n := by
  apply intAt_of_slice
  have stored := slice_copyTo m a (intBytes n)
  rwa [length_intBytes] at stored

theorem intAt_copyTo_apart (m : Memory) {a b : Nat} (n : Int) (apart : a + 4 ≤ b ∨ b + 4 ≤ a) :
    intAt (copyTo m b (intBytes n)) a = intAt m a := by
  apply intAt_congr
  intro i small
  exact copyTo_outside _ (by rw [length_intBytes]; omega)

theorem holdsComm_putCommand {row : SendersComm} (serial : IsSerial row.scommid) :
    HoldsComm (putCommand m base row) base (SenderSide.commandOf row) := by
  have id := serial.atoi
  have same (n : Int) : SenderSide.atoi (SenderSide.atoi n) = SenderSide.atoi n :=
    SenderSide.atoi_self (SenderSide.atoi_range n)
  have scommid : (SenderSide.atoi (SenderSide.atoi row.scommid)).toNat = row.scommid := by
    rw [same, id, Int.toNat_natCast]
  unfold SenderSide.commandOf putCommand
  split
  · constructor
    · rw [intAt_copyTo_apart _ _ (by omega), intAt_copyTo_apart _ _ (by omega),
        intAt_copyTo_apart _ _ (by omega), intAt_copyTo]
      decide
    · rw [openConnectionAt, intAt_copyTo, intAt_copyTo_apart _ _ (by omega), intAt_copyTo,
        intAt_copyTo_apart _ _ (by omega), intAt_copyTo_apart _ _ (by omega), intAt_copyTo, same, same,
        scommid]
  · constructor
    · rw [intAt_copyTo_apart _ _ (by omega), intAt_copyTo_apart _ _ (by omega),
        intAt_copyTo_apart _ _ (by omega), intAt_copyTo]
      decide
    · rw [closeConnectionAt, intAt_copyTo, intAt_copyTo_apart _ _ (by omega), intAt_copyTo,
        intAt_copyTo_apart _ _ (by omega), intAt_copyTo_apart _ _ (by omega), intAt_copyTo, same, same,
        scommid]

theorem intAt_part (m : Memory) (base : Nat) (before after : Bytea) (n : Int) :
    intAt (copyTo m base (before ++ intBytes n ++ after)) (base + before.length) =
      SenderSide.atoi n := by
  apply intAt_of_slice
  have stored := slice_copyTo_part m base before (intBytes n) after
  rwa [length_intBytes] at stored

theorem holdsComm_connection {cncsts : ConnectionStatus} (fd : IsInt4 cncsts.fd)
    (address : IsInt4 cncsts.ipaddress) (serial : IsSerial cncsts.scommid) :
    HoldsComm (copyTo m base (connectionStatusBytes cncsts)) base (.connection cncsts) := by
  obtain ⟨socket, ipaddress, scommid⟩ := cncsts
  have type := intAt_part m base [] (intBytes socket ++ intBytes ipaddress ++ intBytes scommid) 3
  have four := intAt_part m base (intBytes 3) (intBytes ipaddress ++ intBytes scommid) socket
  have eight := intAt_part m base (intBytes 3 ++ intBytes socket) (intBytes scommid) ipaddress
  have twelve := intAt_part m base (intBytes 3 ++ intBytes socket ++ intBytes ipaddress) []
    scommid
  simp only [List.length_append, length_intBytes, List.length_nil, List.nil_append, List.append_nil,
    ← List.append_assoc, Nat.add_zero, Nat.reduceAdd] at type four eight twelve
  constructor
  · rw [connectionStatusBytes, type]
    decide
  · rw [connectionStatusAt, connectionStatusBytes, four, eight, twelve, SenderSide.atoi_self fd,
      SenderSide.atoi_self address, serial.atoi, Int.toNat_natCast]

theorem holdsComm_message {msgsts : MessageStatus} (status : IsInt4 msgsts.status) :
    HoldsComm (copyTo m base (messageStatusBytes msgsts)) base (.message msgsts) := by
  have type := intAt_part m base []
    (intBytes msgsts.status ++ (msgsts.uuid.text ++ [0]) ++ List.replicate 3 0) 4
  have four := intAt_part m base (intBytes 4) ((msgsts.uuid.text ++ [0]) ++ List.replicate 3 0)
    msgsts.status
  have eight := slice_copyTo_part m base (intBytes 4 ++ intBytes msgsts.status)
    (msgsts.uuid.text ++ [0]) (List.replicate 3 0)
  simp only [List.length_append, length_intBytes, List.length_nil, List.nil_append, Nat.add_zero,
    ← List.append_assoc, Nat.reduceAdd, List.length_singleton, msgsts.uuid.length] at type four eight
  refine ⟨?_, ?_, ?_⟩
  · rw [messageStatusBytes, ← List.append_assoc, type]
    decide
  · rw [messageStatusBytes, ← List.append_assoc, four, SenderSide.atoi_self status]
  · rw [messageStatusBytes, ← List.append_assoc]
    exact uuidAt_of_slice eight

theorem holdsData_put (m : Memory) (idx : Nat) {sc : SendingConn} {js : Job}
    (fits : js.jobdata.length ≤ messageSize) :
    HoldsData (putData (putInfo m (datasBlock.blkptr idx) sc js) (datasBlock.blkptr idx) js)
      (datasBlock.blkptr idx) (SenderSide.sendMessageOf sc js) := by
  have place : datasBlock.blkptr idx = Giving.blkptr idx := rfl
  rw [place]
  have contains := Giving.contains_put m idx sc js
  have most : messageSize = 131072 := rfl
  have size := intAt_of_slice contains.size
  have range : IsInt4 (js.jobdata.length : Int) := by
    unfold IsInt4 int4Min int4Max
    omega
  rw [SenderSide.atoi_self range] at size
  refine ⟨bind_ok.mpr ⟨js.jobid, uuidAt_of_slice contains.uuid, pure_ok.mpr ?_⟩, fits⟩
  have fd := intAt_of_slice contains.fd
  have data := contains.data
  rw [size, Int.toNat_natCast, SenderSide.sendMessageOf]
  exact congrArg₂ (fun fd data => (⟨js.jobdata.length, fd, js.jobid, data⟩ : SendMessage)) fd data

end Puts

def Ranged : Sender → Prop
  | .executing (.openConn opncn) => IsInt4 opncn.ipaddress ∧ IsSerial opncn.scommid
  | .executing (.closeConn clscn) => IsInt4 clscn.ipaddress ∧ IsSerial clscn.scommid
  | .reporting cncsts => IsInt4 cncsts.fd ∧ IsInt4 cncsts.ipaddress ∧ IsSerial cncsts.scommid
  | .settling msgsts => IsInt4 msgsts.status
  | _ => True

def AtPartition (m : Memory) (comms : Block SenderComm) : ProcessorS → Prop
  | .deleting idx _ => idx < totalPartitions ∧ comms.bit idx = true
  | .marking idx row => idx < totalPartitions ∧ comms.bit idx = false ∧
      HoldsComm m (commsBlock.blkptr idx) (SenderSide.commandOf row)
  | _ => True

/-- The bytes stand for the records, and all else is the same. -/
structure Refines (r : State) (s : SenderSide.State) : Prop where
  datas : Bitmap.Agrees datasBlock HoldsData r.datas s.datas
  comms : Bitmap.Agrees commsBlock HoldsComm r.comms s.comms
  at_partition : AtPartition r.comms s.comms s.processorS
  ranged : Ranged s.sender
  semLockSigs : r.semLockSigs = s.semLockSigs
  semLockSigps : r.semLockSigps = s.semLockSigps
  processorS : r.processorS = s.processorS
  sender : r.sender = s.sender
  sockets : r.sockets = s.sockets
  db : r.db = s.db

def statusRead (s : State) : Option ConnectionStatus :=
  let position := getSubblock s.comms true 2
  let blkptr := commsBlock.blkptr position.toNat
  if 0 ≤ position ∧ intAt s.comms blkptr = 3 then some (connectionStatusAt s.comms blkptr) else none

/-- The rows that go into the blocks fit their fields, and the text of the address in a status
its buffer. -/
def Fits (s : State) : Action → Prop
  | .readMsg => ∀ cncsts ∈ statusRead s, Addresses.InBuffer cncsts
  | .sendMsg _ => ∀ sm ∈ s.db.sendersComms, IsSerial sm.scommid
  | .giveData _ => ∀ js ∈ s.db.jobScheduler, js.jstate = .S4 → js.jobdata.length ≤ messageSize
  | _ => True

section Steps

variable {r : State} {s : SenderSide.State}

theorem isSerial_toNat {n : Int} (range : IsInt4 n) : IsSerial n.toNat := by
  unfold IsInt4 at range
  unfold IsSerial int4Max at *
  omega

theorem ranged_holds {m : Memory} {base : Nat} {command : SenderComm}
    (holds : HoldsComm m base command) : Ranged (.executing command) := by
  cases command with
  | openConn opncn =>
      rw [← holds.2]
      exact ⟨intAt_range m _, isSerial_toNat (intAt_range m _)⟩
  | closeConn clscn =>
      rw [← holds.2]
      exact ⟨intAt_range m _, isSerial_toNat (intAt_range m _)⟩
  | connection cncsts => trivial
  | message msgsts => trivial

theorem rel_readMsg (refines : Refines r s) (fits : Fits r .readMsg) :
    Option.Rel Refines (readMsg r) (some (SenderSide.readMsg s)) := by
  unfold readMsg SenderSide.readMsg
  cases found : s.comms.getSubblock true 2 with
  | none =>
      simp only [if_neg (refines.comms.scan_none found)]
      exact .some { refines with at_partition := trivial, processorS := rfl }
  | some idx =>
      obtain ⟨nonneg, position, low, taken⟩ := refines.comms.scan_some found
      obtain ⟨record, stored, holds⟩ := refines.comms.records idx low taken
      have freed := refines.comms.clear local_comm taken low
      simp only [if_pos nonneg, position, stored]
      cases record with
      | openConn opncn =>
          have type : intAt r.comms (commsBlock.blkptr idx) = 1 := holds.1
          simp only [type, show ¬ (1 : Int) = 3 by decide, show ¬ (1 : Int) = 4 by decide, if_false]
          exact .some { refines with comms := freed, at_partition := trivial, processorS := rfl }
      | closeConn clscn =>
          have type : intAt r.comms (commsBlock.blkptr idx) = 2 := holds.1
          simp only [type, show ¬ (2 : Int) = 3 by decide, show ¬ (2 : Int) = 4 by decide, if_false]
          exact .some { refines with comms := freed, at_partition := trivial, processorS := rfl }
      | connection cncsts =>
          have type : intAt r.comms (commsBlock.blkptr idx) = 3 := holds.1
          have fields : connectionStatusAt r.comms (commsBlock.blkptr idx) = cncsts := holds.2
          have short : Addresses.InBuffer cncsts := by
            apply fits
            simp only [statusRead, nonneg, position, type, fields, and_self, if_true, Option.mem_def]
          simp only [type, if_true, fields, if_pos short, refines.db]
          exact .some { refines with at_partition := ⟨low, taken⟩, processorS := rfl, db := rfl }
      | message msgsts =>
          obtain ⟨type, status, uuid⟩ := holds
          simp only [type, show ¬ (4 : Int) = 3 by decide, if_false, if_true, storeStatus, uuid, status,
            refines.db]
          exact .some { refines with
            comms := freed, at_partition := trivial, processorS := rfl, db := rfl }

theorem within_putCommand (m : Memory) (idx : Nat) (row : SendersComm) :
    Within commsBlock idx m (putCommand m (commsBlock.blkptr idx) row) := by
  have room : commsBlock.partition = 50 := rfl
  intro a outside
  unfold putCommand
  rw [copyTo_outside _ (by rw [length_intBytes]; omega),
    copyTo_outside _ (by rw [length_intBytes]; omega),
    copyTo_outside _ (by rw [length_intBytes]; omega),
    copyTo_outside _ (by rw [length_intBytes]; omega)]

theorem within_clear (c : Channel) (m : Memory) (idx : Nat) :
    Within c idx m (copyTo m (c.blkptr idx) (List.replicate c.partition 0)) :=
  Bitmap.within_copyTo (by rw [List.length_replicate])

theorem rel_sendMsg (refines : Refines r s) {choice : Nat} (fits : Fits r (.sendMsg choice)) :
    Option.Rel Refines (sendMsg r choice) (SenderSide.sendMsg s choice) := by
  unfold sendMsg SenderSide.sendMsg
  cases found : s.comms.getSubblock false 1 with
  | none =>
      simp only [if_neg (refines.comms.scan_none found)]
      exact .some { refines with at_partition := trivial, processorS := rfl }
  | some idx =>
      obtain ⟨nonneg, position, low, free⟩ := refines.comms.scan_some found
      have cleared := within_clear commsBlock r.comms idx
      simp only [if_pos nonneg, position, refines.db]
      cases rows : SenderSide.commands s.db with
      | nil =>
          refine .some { refines with
            comms := ?_, at_partition := trivial, processorS := rfl, db := rfl }
          exact refines.comms.within local_comm free low cleared
      | cons first rest =>
          dsimp only
          cases chosen : (first :: rest)[choice]? with
          | none => exact .none
          | some row =>
              have listed : row ∈ SenderSide.commands s.db := rows ▸ List.mem_of_getElem? chosen
              have serial : IsSerial row.scommid :=
                fits row (refines.db ▸ (List.mem_filter.mp listed).1)
              have within := cleared.trans (within_putCommand _ idx row)
              refine .some { refines with
                comms := ?_, at_partition := ?_, processorS := rfl, db := rfl }
              · exact refines.comms.within local_comm free low within
              · exact ⟨low, free, holdsComm_putCommand serial⟩

theorem within_put (m : Memory) (idx : Nat) (sc : SendingConn) {js : Job}
    (fits : js.jobdata.length ≤ messageSize) : Within datasBlock idx m
      (putData (putInfo m (datasBlock.blkptr idx) sc js) (datasBlock.blkptr idx) js) := by
  intro a outside
  rw [Giving.putData_outside _ fits outside, Giving.putInfo_outside _ _ _ outside]

theorem rel_giveData (refines : Refines r s) {choice : Nat} (fits : Fits r (.giveData choice)) :
    Option.Rel Refines (giveData r choice) (SenderSide.giveData s choice) := by
  unfold giveData SenderSide.giveData
  cases found : s.datas.getSubblock false 3 with
  | none =>
      simp only [if_neg (refines.datas.scan_none found)]
      exact .some { refines with at_partition := trivial, processorS := rfl }
  | some idx =>
      obtain ⟨nonneg, position, low, free⟩ := refines.datas.scan_some found
      have cleared := within_clear datasBlock r.datas idx
      simp only [if_pos nonneg, position, refines.db]
      cases first : SenderSide.firstInfo s.db choice with
      | none => exact .none
      | some row =>
          cases row with
          | none =>
              refine .some { refines with
                datas := ?_, at_partition := trivial, processorS := rfl, db := rfl }
              exact refines.datas.within local_data free low cleared
          | some pair =>
              obtain ⟨sc, js⟩ := pair
              have listed := (Db.mem_sGetInfo.mp (SenderSide.firstInfo_mem first))
              have small : js.jobdata.length ≤ messageSize :=
                fits js (refines.db ▸ listed.2.1) listed.2.2.1
              have within := cleared.trans (within_put _ idx sc small)
              refine .some { refines with
                datas := ?_, at_partition := trivial, processorS := rfl, db := rfl
                semLockSigs := congrArg (· + 1) refines.semLockSigs }
              exact refines.datas.write local_data free low within (holdsData_put _ idx small)

theorem elsewhere {processorS : ProcessorS} (free : processorS.locksComms = false) (m : Memory)
    (comms : Block SenderComm) : AtPartition m comms processorS := by
  cases processorS with
  | deleting idx scommid => cases free
  | marking idx row => cases free
  | waiting => trivial
  | reading => trivial
  | commanding => trivial
  | giving => trivial

theorem refines_getMessage (refines : Refines r s) (free : s.processorS.locksComms = false) :
    Refines (getMessage r) (SenderSide.getMessage s) := by
  unfold getMessage SenderSide.getMessage
  cases found : s.comms.getSubblock true 1 with
  | none =>
      simp only [if_neg (refines.comms.scan_none found)]
      exact { refines with ranged := trivial, sender := rfl }
  | some idx =>
      obtain ⟨nonneg, position, low, taken⟩ := refines.comms.scan_some found
      obtain ⟨record, stored, holds⟩ := refines.comms.records idx low taken
      have freed := refines.comms.clear local_comm taken low
      have ranged := ranged_holds holds
      simp only [if_pos nonneg, position, stored]
      cases record with
      | openConn opncn =>
          have type : intAt r.comms (commsBlock.blkptr idx) = 1 := holds.1
          have fields : openConnectionAt r.comms (commsBlock.blkptr idx) = opncn := holds.2
          simp only [type, if_true, fields]
          exact { refines with
            comms := freed, at_partition := elsewhere free _ _, ranged := ranged, sender := rfl }
      | closeConn clscn =>
          have type : intAt r.comms (commsBlock.blkptr idx) = 2 := holds.1
          have fields : closeConnectionAt r.comms (commsBlock.blkptr idx) = clscn := holds.2
          simp only [type, show ¬ (2 : Int) = 1 by decide, if_false, if_true, fields]
          exact { refines with
            comms := freed, at_partition := elsewhere free _ _, ranged := ranged, sender := rfl }
      | connection cncsts =>
          have type : intAt r.comms (commsBlock.blkptr idx) = 3 := holds.1
          simp only [type, show ¬ (3 : Int) = 1 by decide, show ¬ (3 : Int) = 2 by decide, if_false]
          exact { refines with
            comms := freed, at_partition := elsewhere free _ _, ranged := trivial, sender := rfl }
      | message msgsts =>
          have type : intAt r.comms (commsBlock.blkptr idx) = 4 := holds.1
          simp only [type, show ¬ (4 : Int) = 1 by decide, show ¬ (4 : Int) = 2 by decide, if_false]
          exact { refines with
            comms := freed, at_partition := elsewhere free _ _, ranged := trivial, sender := rfl }

theorem refines_getData (refines : Refines r s) : Refines (getData r) (SenderSide.getData s) := by
  unfold getData SenderSide.getData
  cases found : s.datas.getSubblock true 3 with
  | none =>
      simp only [if_neg (refines.datas.scan_none found)]
      exact { refines with ranged := trivial, sender := rfl }
  | some idx =>
      obtain ⟨nonneg, position, low, taken⟩ := refines.datas.scan_some found
      obtain ⟨sndmsg, stored, holds⟩ := refines.datas.records idx low taken
      simp only [if_pos nonneg, position, stored, holds.1]
      exact { refines with
        datas := refines.datas.clear local_data taken low, ranged := trivial, sender := rfl }

theorem refines_report (refines : Refines r s) (free : s.processorS.locksComms = false)
    {bytes : Bytea} {record : SenderComm} {next : Sender} (short : bytes.length ≤ cpartitionSize)
    (holds : ∀ m base, HoldsComm (copyTo m base bytes) base record) (ranged : Ranged next) :
    Refines (sendMessageToProcessor r bytes next)
      (SenderSide.sendMessageToProcessor s record next) := by
  unfold sendMessageToProcessor SenderSide.sendMessageToProcessor
  cases found : s.comms.getSubblock false 2 with
  | none =>
      simp only [if_neg (refines.comms.scan_none found)]
      exact { refines with ranged := ranged, sender := rfl }
  | some idx =>
      obtain ⟨nonneg, position, low, unused⟩ := refines.comms.scan_some found
      have cleared := within_clear commsBlock r.comms idx
      have within : Within commsBlock idx r.comms _ := cleared.trans (Bitmap.within_copyTo short)
      simp only [if_pos nonneg, position]
      refine { refines with
        comms := ?_, at_partition := elsewhere free _ _, ranged := ranged, sender := rfl
        semLockSigps := congrArg (· + 1) refines.semLockSigps }
      exact refines.comms.write local_comm unused low within (holds _ _)

theorem length_connectionStatusBytes (cncsts : ConnectionStatus) :
    (connectionStatusBytes cncsts).length ≤ cpartitionSize := by
  simp [connectionStatusBytes, cpartitionSize]

theorem length_messageStatusBytes (msgsts : MessageStatus) :
    (messageStatusBytes msgsts).length ≤ cpartitionSize := by
  simp [messageStatusBytes, cpartitionSize, msgsts.uuid.length]

theorem rel_connect (refines : Refines r s) {opncn : OpenConnection}
    (ranged : Ranged (.executing (.openConn opncn))) (fd : Option Int) (established : Bool) :
    Option.Rel Refines (connect r opncn fd established) (SenderSide.connect s opncn fd established) := by
  unfold connect SenderSide.connect
  have minus : IsInt4 (-1) := by decide
  cases fd with
  | none => exact .some { refines with ranged := ⟨minus, ranged.1, ranged.2⟩, sender := rfl }
  | some fd =>
      dsimp only
      rw [refines.sockets]
      split
      · next usable =>
          have socket : IsInt4 (if established then fd else -1) := by
            split
            · unfold IsInt4 int4Min
              exact ⟨by omega, usable.2.1⟩
            · exact minus
          exact .some { refines with
            ranged := ⟨socket, ranged.1, ranged.2⟩, sender := rfl, sockets := rfl }
      · exact .none

theorem refines_sendTurn (refines : Refines r s) (sndmsg : SendMessage)
    (totalDataSent dataSent : Int) : Refines (sendTurn r sndmsg totalDataSent dataSent)
      (SenderSide.sendTurn s sndmsg totalDataSent dataSent) := by
  unfold sendTurn SenderSide.sendTurn
  dsimp only
  split
  · exact { refines with ranged := trivial, sender := rfl }
  · refine { refines with ranged := ?_, sender := rfl }
    unfold Ranged
    dsimp only
    split
    · decide
    · decide

theorem bisimilar : Bisimilar step SenderSide.step Fits Refines := by
  intro r s a refines fits
  have minus : IsInt4 (-1) := by decide
  have place := refines.processorS
  have turn := refines.sender
  cases a with
  | signal =>
      exact .some { refines with semLockSigps := congrArg (· + 1) refines.semLockSigps }
  | waitSigps =>
      simp only [step, SenderSide.step, place, refines.semLockSigps]
      cases s.processorS with
      | waiting =>
          cases s.semLockSigps with
          | zero => exact .none
          | succ sigps =>
              exact .some { refines with at_partition := trivial, processorS := rfl, semLockSigps := rfl }
      | _ => exact .none
  | readMsg =>
      simp only [step, SenderSide.step, place]
      cases s.processorS with
      | reading => exact rel_readMsg refines fits
      | _ => exact .none
  | deleteComms =>
      have there := refines.at_partition
      simp only [step, SenderSide.step, place, refines.db]
      cases deletes : s.processorS with
      | deleting idx scommid =>
          rw [deletes] at there
          exact .some { refines with
            comms := refines.comms.clear local_comm there.2 there.1
            at_partition := trivial, processorS := rfl, db := rfl }
      | _ => exact .none
  | sendMsg choice =>
      simp only [step, SenderSide.step, place]
      cases s.processorS with
      | commanding => exact rel_sendMsg refines fits
      | _ => exact .none
  | updateComms =>
      have there := refines.at_partition
      simp only [step, SenderSide.step, place, refines.db]
      cases marks : s.processorS with
      | marking idx row =>
          rw [marks] at there
          obtain ⟨low, free, holds⟩ := there
          exact .some { refines with
            comms := refines.comms.write local_comm free low (fun _ _ => rfl) holds
            at_partition := trivial, processorS := rfl, db := rfl
            semLockSigs := congrArg (· + 1) refines.semLockSigs }
      | _ => exact .none
  | giveData choice =>
      simp only [step, SenderSide.step, place]
      cases s.processorS with
      | giving => exact rel_giveData refines fits
      | _ => exact .none
  | waitSigs =>
      simp only [step, SenderSide.step, turn, refines.semLockSigs]
      cases s.sender with
      | waiting =>
          cases s.semLockSigs with
          | zero => exact .none
          | succ sigs =>
              exact .some { refines with ranged := trivial, sender := rfl, semLockSigs := rfl }
      | _ => exact .none
  | getMessage =>
      simp only [step, SenderSide.step, turn, place]
      cases s.sender with
      | receiving =>
          cases free : s.processorS.locksComms with
          | false => exact .some (refines_getMessage refines free)
          | true => exact .none
      | _ => exact .none
  | connect fd established =>
      have ranged := refines.ranged
      simp only [step, SenderSide.step, turn]
      cases executes : s.sender with
      | executing command =>
          rw [executes] at ranged
          cases command with
          | openConn opncn => exact rel_connect refines ranged fd established
          | _ => exact .none
      | _ => exact .none
  | close =>
      have ranged := refines.ranged
      simp only [step, SenderSide.step, turn, refines.sockets]
      cases executes : s.sender with
      | executing command =>
          rw [executes] at ranged
          cases command with
          | closeConn clscn =>
              exact .some { refines with
                ranged := ⟨minus, ranged.1, ranged.2⟩, sender := rfl, sockets := rfl }
          | _ => exact .none
      | _ => exact .none
  | reportConnection =>
      have ranged := refines.ranged
      simp only [step, SenderSide.step, turn, place]
      cases reports : s.sender with
      | reporting cncsts =>
          rw [reports] at ranged
          cases free : s.processorS.locksComms with
          | false =>
              exact .some (refines_report refines free (length_connectionStatusBytes cncsts)
                (fun _ _ => holdsComm_connection ranged.1 ranged.2.1 ranged.2.2) trivial)
          | true => exact .none
      | _ => exact .none
  | getData =>
      simp only [step, SenderSide.step, turn]
      cases s.sender with
      | fetching => exact .some (refines_getData refines)
      | _ => exact .none
  | send dataSent =>
      simp only [step, SenderSide.step, turn]
      cases s.sender with
      | sending sndmsg total =>
          dsimp only
          split
          · exact .some (refines_sendTurn refines sndmsg total dataSent)
          · exact .none
      | _ => exact .none
  | reportMessage =>
      have ranged := refines.ranged
      simp only [step, SenderSide.step, turn, place]
      cases reports : s.sender with
      | settling msgsts =>
          rw [reports] at ranged
          cases free : s.processorS.locksComms with
          | false =>
              exact .some (refines_report refines free (length_messageStatusBytes msgsts)
                (fun _ _ => holdsComm_message ranged) trivial)
          | true => exact .none
      | _ => exact .none
  | database op =>
      simp only [step, SenderSide.step, refines.db]
      split
      · cases s.db.perform op with
        | none => exact .none
        | some db => exact .some { refines with db := rfl }
      · exact .none

end Steps

/-- The fields of the structures fit their partitions and do not overlap: in every run the
programs do with the bytes what they do with the records, and write nothing behind the blocks. -/
theorem bytes_refine_records {db : Db} {sigs sigps : Nat} {actions : List Action}
    (fits : Guarded step Fits (initial db sigs sigps) actions) :
    Option.Rel Refines (run step (initial db sigs sigps) actions)
      (run SenderSide.step { SenderSide.initial db sigs with semLockSigps := sigps } actions) := by
  apply bisimilar.run _ fits
  constructor
  · exact Bitmap.agrees_zero
  · exact Bitmap.agrees_zero
  · trivial
  · trivial
  all_goals rfl

instance decidableFits (s : State) (a : Action) : Decidable (Fits s a) :=
  match a with
  | .sendMsg _ => inferInstanceAs (Decidable (∀ sm ∈ s.db.sendersComms, (sm.scommid : Int) ≤ int4Max))
  | .giveData _ =>
      inferInstanceAs (Decidable
        (∀ js ∈ s.db.jobScheduler, js.jstate = .S4 → js.jobdata.length ≤ messageSize))
  | .signal => .isTrue trivial
  | .waitSigps => .isTrue trivial
  | .readMsg => inferInstanceAs (Decidable (∀ cncsts ∈ statusRead s, Addresses.InBuffer cncsts))
  | .deleteComms => .isTrue trivial
  | .updateComms => .isTrue trivial
  | .waitSigs => .isTrue trivial
  | .getMessage => .isTrue trivial
  | .connect _ _ => .isTrue trivial
  | .close => .isTrue trivial
  | .reportConnection => .isTrue trivial
  | .getData => .isTrue trivial
  | .send _ => .isTrue trivial
  | .reportMessage => .isTrue trivial
  | .database _ => .isTrue trivial

theorem first_file_refines :
    ∃ r s, run step (initial SenderSide.knownDb 0 0) SenderSide.firstFile = some r ∧
      run SenderSide.step { SenderSide.initial SenderSide.knownDb 0 with semLockSigps := 0 }
        SenderSide.firstFile = some s ∧ Refines r s := by
  have fits : Guarded step Fits (initial SenderSide.knownDb 0 0) SenderSide.firstFile := by
    decide +kernel
  have related := bytes_refine_records fits
  have ends : (run step (initial SenderSide.knownDb 0 0) SenderSide.firstFile).isSome = true := by
    decide +kernel
  obtain ⟨r, done⟩ := Option.isSome_iff_exists.mp ends
  rw [done] at related
  obtain ⟨s, done', refines⟩ := rel_some related
  exact ⟨r, s, done, done', refines⟩

end SenderBytes

end FileSharing
