import FileSharing.Library.Bisimulations
import FileSharing.Receiver.Reception
import FileSharing.Sender.Bytes

/-! The receiving side on bytes: the two blocks, the buffer `nmsg` of `run_receiver`, and what
is on the stack behind a pointer. -/

namespace FileSharing

open Library

namespace ReceiverBytes

open Addresses (Inbound htonl receiverKey capacityInfo)
open Bitmap (Channel Bytes getSubblock toggleBit Within)
open Giving (intBytes length_intBytes)
open Reception (Connection)
open SenderBytes (intAt intAt_moved)
open Wakeups (ProcessorR)

def commrBlock : Channel := SenderBytes.commsBlock

def datarBlock : Channel := SenderBytes.datasBlock

def newmsgSize : Nat := messageSize + 8

/-- `sizeof(capacity_info)`; three bytes follow the text. -/
def capacityInfoSize : Nat := 24

def newmsgDataAt (m : Memory) (a : Nat) : NewmsgData :=
  let data2 := (intAt m (a + 4)).toNat
  ⟨intAt m a, data2, slice m (a + 8) data2⟩

def receiversMessageAt (m : Memory) (a : Nat) : ReceiversMessage :=
  ⟨intAt m a, intAt m (a + 4), intAt m (a + 8)⟩

def capacityInfoAt (m : Memory) (a : Nat) : CapacityInfo :=
  ⟨intAt m a, (slice m (a + 4) 20).takeWhile (· ≠ 0)⟩

def receiversMessageBytes (rcvm : ReceiversMessage) : Bytea :=
  intBytes rcvm.fd ++ intBytes rcvm.ipaddr ++ intBytes rcvm.status

/-- `cpif` of `get_comms_from_database`; the 0 is put behind the 17 characters. -/
def cpifOf (row : ReceiversComm) : Memory :=
  let m := copyTo (fun _ => 0) 4 (intText row.rdata1)
  let m := copyTo m (4 + 17) [0]
  copyTo m 0 (intBytes (SenderSide.atoi row.rdata2))

/-- Where `run_receiver` is, with `total_bytes_read`. -/
inductive Receiver where
  | waiting
  | reading (fd : Int) (size total : Nat)

structure State where
  datar : Memory
  commr : Memory
  nmsg : Memory
  semLockSigr : Nat
  processorR : ProcessorR
  htable : Hash.HashTable
  conns : Int → Option Connection
  receiver : Receiver
  db : Db

/-- An action, and the bytes that the stack holds behind `&cpif` meanwhile. -/
structure Turn where
  action : Reception.Action
  stack : Bytes capacityInfoSize

/-- Before each message the first `size` bytes of the buffer are cleared. -/
def beginMessage (nmsg : Memory) (fd : Int) (size : Nat) : Memory :=
  copyTo (copyTo nmsg 0 (List.replicate size 0)) 0 (intBytes fd)

def sendToProcessor (s : State) (nmsg : Memory) : State :=
  let position := getSubblock s.datar false 3
  if 0 ≤ position then
    let blkptr := datarBlock.blkptr position.toNat
    let cleared := copyTo s.datar blkptr (List.replicate Giving.dpartitionSize 0)
    { s with
      datar := toggleBit position.toNat (copyFrom cleared blkptr nmsg 0 newmsgSize)
      semLockSigr := s.semLockSigr + 1 }
  else s

def sendMessageToProcessor (s : State) (rcvm : ReceiversMessage) : State :=
  let position := getSubblock s.commr false 2
  if 0 ≤ position then
    let blkptr := commrBlock.blkptr position.toNat
    let cleared := copyTo s.commr blkptr (List.replicate SenderBytes.cpartitionSize 0)
    { s with
      commr := toggleBit position.toNat (copyTo cleared blkptr (receiversMessageBytes rcvm))
      semLockSigr := s.semLockSigr + 1 }
  else s

/-- The second `memcpy` copies from the address of the pointer `cpif`. -/
def getMessageFromProcessor (s : State) (stack : Bytes capacityInfoSize) : Option State :=
  let position := getSubblock s.commr true 1
  if 0 ≤ position then
    let blkptr := commrBlock.blkptr position.toNat
    let cpif := capacityInfoAt s.commr blkptr
    (Hash.hput s.htable cpif.ipaddress cpif.capacity).map fun put => { s with
      commr := toggleBit position.toNat (copyTo s.commr blkptr stack), htable := put.2 }
  else some s

def accept (s : State) (fd : Int) (names : Inbound) : State :=
  { sendMessageToProcessor s ⟨fd, (htonl names.peername).toInt, 2⟩ with
    conns := Function.update s.conns fd (some ⟨names, []⟩) }

def endConnection (s : State) (fd : Int) : State :=
  { sendMessageToProcessor s ⟨fd, 0, 1⟩ with conns := Function.update s.conns fd none }

def event (s : State) (fd : Int) (conn : Connection) : Option State :=
  (Hash.hget s.htable (receiverKey conn.names)).map fun size =>
    if 0 ≤ size then { s with
      nmsg := beginMessage s.nmsg fd size.toNat, receiver := .reading fd size.toNat 0 }
    else endConnection s fd

def read (s : State) (fd : Int) (size total count : Nat) : Option State :=
  (s.conns (intAt s.nmsg 0)).bind fun conn =>
    if 1 ≤ count ∧ count ≤ size - total ∧ count ≤ conn.stream.length then
      let rest := conn.stream.drop count
      let taken := { s with
        conns := Function.update s.conns (intAt s.nmsg 0) (some ⟨conn.names, rest⟩) }
      let nmsg := copyTo s.nmsg (8 + total) (conn.stream.take count)
      if total + count = size then
        let whole := copyTo nmsg 4 (intBytes (total + count : Nat))
        some { sendToProcessor taken whole with
          nmsg := beginMessage whole fd size, receiver := .reading fd size 0 }
      else some { taken with nmsg := nmsg, receiver := .reading fd size (total + count) }
    else none

def getMessageFromReceiver (s : State) : State :=
  let position := getSubblock s.commr true 2
  if 0 ≤ position then
    let rcvm := receiversMessageAt s.commr (commrBlock.blkptr position.toNat)
    { s with
      commr := toggleBit position.toNat s.commr
      processorR := .data
      db := Wakeups.storeCommrIntoDatabase s.db rcvm }
  else { s with processorR := .data }

def getDataFromReceiver (s : State) (id : Uuid) : Option State :=
  let position := getSubblock s.datar true 3
  if 0 ≤ position then do
    let nmsg := newmsgDataAt s.datar (datarBlock.blkptr position.toNat)
    let db ← (s.db.storeData id nmsg.data1 nmsg.data).toOption
    return { s with datar := toggleBit position.toNat s.datar, processorR := .comms, db := db }
  else some { s with processorR := .comms }

def sendMsgToReceiver (s : State) (rcomid : Nat) : Option State :=
  let position := getSubblock s.commr false 1
  if 0 ≤ position then
    let blkptr := commrBlock.blkptr position.toNat
    let cleared := copyTo s.commr blkptr (List.replicate SenderBytes.cpartitionSize 0)
    if s.db.receiversComms = [] then some { s with commr := cleared, processorR := .waiting }
    else (s.db.prGetcomms rcomid).map fun (row, db) => { s with
      commr := toggleBit position.toNat (copyFrom cleared blkptr (cpifOf row) 0 capacityInfoSize)
      processorR := .waiting
      db := db }
  else some { s with processorR := .waiting }

def other (s : State) : Wakeups.Action → Option State
  | .capacity row => some { s with db := s.db.createComms row }
  | .notify =>
      match s.db.noti1receiver with
      | noti + 1 => some { s with
          semLockSigr := s.semLockSigr + 1, db := { s.db with noti1receiver := noti } }
      | 0 => none
  | .waitSigr =>
      match s.processorR, s.semLockSigr with
      | .waiting, sigr + 1 => some { s with semLockSigr := sigr, processorR := .message }
      | _, _ => none
  | .getMessageFromReceiver =>
      match s.processorR with
      | .message => some (getMessageFromReceiver s)
      | _ => none
  | .getDataFromReceiver id =>
      match s.processorR with
      | .data => getDataFromReceiver s id
      | _ => none
  | .sendMsgToReceiver rcomid =>
      match s.processorR with
      | .comms => sendMsgToReceiver s rcomid
      | _ => none
  | .sendToProcessor _ | .sendMessageToProcessor _ | .getMessageFromProcessor => none

def step (s : State) (turn : Turn) : Option State :=
  match turn.action with
  | .arrive fd data => (s.conns fd).map fun conn => { s with
      conns := Function.update s.conns fd (some ⟨conn.names, conn.stream ++ data⟩) }
  | .accept fd names =>
      match s.receiver, s.conns fd with
      | .waiting, none => if 0 ≤ fd ∧ fd ≤ int4Max then some (accept s fd names) else none
      | _, _ => none
  | .getMessageFromProcessor =>
      match s.receiver with
      | .waiting => getMessageFromProcessor s turn.stack
      | _ => none
  | .event fd =>
      match s.receiver, s.conns fd with
      | .waiting, some conn => event s fd conn
      | _, _ => none
  | .read count =>
      match s.receiver with
      | .reading fd size total => read s fd size total count
      | _ => none
  | .again =>
      match s.receiver with
      | .reading _ _ _ => some { s with receiver := .waiting }
      | _ => none
  | .endConnection fd =>
      match s.receiver, s.conns fd with
      | .waiting, some _ => some (endConnection s fd)
      | _, _ => none
  | .others a => other s a

def initial (root : Uuid) (own : SelfInfo) (size : Nat) (nmsg : Memory) : State :=
  ⟨fun _ => 0, fun _ => 0, nmsg, 0, .waiting, Hash.hcreateTable size, fun _ => none, .waiting,
    Db.installed root own⟩

def HoldsComm (m : Memory) (base : Nat) : ReceiverComm → Prop
  | .capacity cpif => base < commrBlock.blkptr 40 ∧ capacityInfoAt m base = cpif
  | .connection rcvm => commrBlock.blkptr 40 ≤ base ∧ receiversMessageAt m base = rcvm

def HoldsData (m : Memory) (base : Nat) (nmsg : NewmsgData) : Prop :=
  newmsgDataAt m base = nmsg ∧ nmsg.data2 ≤ messageSize

section Fields

variable {m n : Memory} {a b base : Nat}

theorem moved_part {count part offset : Nat} (moved : ∀ i < count, m (a + i) = n (b + i))
    (inside : offset + part ≤ count) : ∀ i < part, m (a + offset + i) = n (b + offset + i) := by
  intro i small
  rw [Nat.add_assoc, Nat.add_assoc]
  exact moved _ (by omega)

theorem receiversMessageAt_moved (moved : ∀ i < 12, m (a + i) = n (b + i)) :
    receiversMessageAt m a = receiversMessageAt n b := by
  have fd : intAt m a = intAt n b := intAt_moved fun i small => moved i (by omega)
  have ipaddr := intAt_moved (moved_part moved (show 4 + 4 ≤ 12 by decide))
  have status := intAt_moved (moved_part moved (show 8 + 4 ≤ 12 by decide))
  rw [receiversMessageAt, receiversMessageAt, fd, ipaddr, status]

theorem capacityInfoAt_moved (moved : ∀ i < capacityInfoSize, m (a + i) = n (b + i)) :
    capacityInfoAt m a = capacityInfoAt n b := by
  have room : capacityInfoSize = 24 := rfl
  have capacity : intAt m a = intAt n b := intAt_moved fun i small => moved i (by omega)
  have ipaddress := slice_moved (moved_part moved (show 4 + 20 ≤ capacityInfoSize by omega))
  rw [capacityInfoAt, capacityInfoAt, capacity, ipaddress]

theorem newmsgDataAt_moved (moved : ∀ i < newmsgSize, m (a + i) = n (b + i))
    (fits : (newmsgDataAt n b).data2 ≤ messageSize) : newmsgDataAt m a = newmsgDataAt n b := by
  have room : newmsgSize = messageSize + 8 := rfl
  have data1 : intAt m a = intAt n b := intAt_moved fun i small => moved i (by omega)
  have data2 := intAt_moved (moved_part moved (show 4 + 4 ≤ newmsgSize by omega))
  have length : (intAt n (b + 4)).toNat ≤ messageSize := fits
  have data := slice_moved
    (moved_part moved (show 8 + (intAt n (b + 4)).toNat ≤ newmsgSize by omega))
  rw [newmsgDataAt, newmsgDataAt, data1, data2, data]

theorem local_comm : Bitmap.Local commrBlock HoldsComm := by
  intro m m' base record same held
  have moved (i : Nat) (small : i < 50) : m' (base + i) = m (base + i) :=
    same _ (Nat.le_add_right _ _) (Nat.add_lt_add_left small base)
  cases record with
  | capacity cpif =>
      exact ⟨held.1, (capacityInfoAt_moved fun i small =>
        moved i (Nat.lt_trans small (by decide))).trans held.2⟩
  | connection rcvm =>
      exact ⟨held.1, (receiversMessageAt_moved fun i small =>
        moved i (Nat.lt_trans small (by decide))).trans held.2⟩

theorem local_data : Bitmap.Local datarBlock HoldsData := by
  intro m m' base nmsg same held
  have moved (i : Nat) (small : i < newmsgSize) : m' (base + i) = m (base + i) :=
    same _ (Nat.le_add_right _ _)
      (Nat.add_lt_add_left (Nat.lt_of_lt_of_le small (by decide)) base)
  exact ⟨(newmsgDataAt_moved moved (held.1 ▸ held.2)).trans held.1, held.2⟩

theorem length_receiversMessageBytes (rcvm : ReceiversMessage) :
    (receiversMessageBytes rcvm).length = 12 := by
  simp [receiversMessageBytes]

structure Ranged (rcvm : ReceiversMessage) : Prop where
  fd : IsInt4 rcvm.fd
  ipaddr : IsInt4 rcvm.ipaddr
  status : IsInt4 rcvm.status

theorem receiversMessageAt_copyTo {rcvm : ReceiversMessage} (ranged : Ranged rcvm) :
    receiversMessageAt (copyTo m base (receiversMessageBytes rcvm)) base = rcvm := by
  obtain ⟨fd, ipaddr, status⟩ := rcvm
  have first := SenderBytes.intAt_part m base [] (intBytes ipaddr ++ intBytes status) fd
  have second := SenderBytes.intAt_part m base (intBytes fd) (intBytes status) ipaddr
  have third := SenderBytes.intAt_part m base (intBytes fd ++ intBytes ipaddr) [] status
  simp only [List.length_append, length_intBytes, List.length_nil, List.nil_append, List.append_nil,
    ← List.append_assoc, Nat.add_zero, Nat.reduceAdd] at first second third
  rw [receiversMessageAt, receiversMessageBytes, first, second, third,
    SenderSide.atoi_self ranged.fd, SenderSide.atoi_self ranged.ipaddr,
    SenderSide.atoi_self ranged.status]

theorem capacityInfoAt_cpifOf {row : ReceiversComm} (short : (intText row.rdata1).length ≤ 17) :
    capacityInfoAt (cpifOf row) 0 = capacityInfo row := by
  have text : slice (cpifOf row) 4 20 =
      intText row.rdata1 ++ List.replicate (20 - (intText row.rdata1).length) 0 := by
    apply List.ext_getElem
    · rw [length_slice, List.length_append, List.length_replicate]
      omega
    · intro i low high
      rw [length_slice] at low
      have before : cpifOf row (4 + i) =
          copyTo (copyTo (fun _ => 0) 4 (intText row.rdata1)) (4 + 17) [0] (4 + i) :=
        copyTo_outside _ (.inr (by rw [length_intBytes]; omega))
      rw [List.getElem_append]
      split
      · next inside =>
          simp only [slice, List.getElem_map, List.getElem_range, before]
          rw [copyTo_outside _ (.inl (by omega))]
          simp [copyTo, inside]
      · next outside =>
          -- behind the text there are the bytes of the cleared structure, and the 0 itself
          have zero (k : Nat) : ([0] : Bytea)[k]?.getD 0 = 0 := by
            cases k with
            | zero => rfl
            | succ k => rfl
          simp [slice, before, copyTo, outside, zero]
  have plain : ∀ c ∈ intText row.rdata1, decide (c ≠ 0) = true := by
    intro c member
    have known := plain_intText row.rdata1 c member
    rw [decide_eq_true_eq]
    rintro rfl
    cases known
  have capacity : intAt (cpifOf row) 0 = SenderSide.atoi row.rdata2 := by
    rw [cpifOf, SenderBytes.intAt_copyTo, SenderSide.atoi_self (SenderSide.atoi_range _)]
  rw [capacityInfoAt, capacity, text, List.takeWhile_append_of_pos plain, List.takeWhile_replicate]
  simp [capacityInfo]

end Fields

/-- The buffer has the part of the message that was read, behind the descriptor. -/
inductive Reads (nmsg : Memory) : Receiver → Reception.Receiver → Prop
  | waiting : Reads nmsg .waiting .waiting
  | reading {fd : Int} {size : Nat} {data : Bytea} (data1 : intAt nmsg 0 = fd)
      (filled : slice nmsg 8 data.length = data) (room : data.length ≤ size)
      (fits : size ≤ messageSize) :
      Reads nmsg (.reading fd size data.length) (.reading fd size data)

/-- The bytes stand for the records, and all else is the same. -/
structure Refines (r : State) (s : Reception.State) : Prop where
  datar : Bitmap.Agrees datarBlock HoldsData r.datar s.side.datar
  commr : Bitmap.Agrees commrBlock HoldsComm r.commr s.side.commr
  reads : Reads r.nmsg r.receiver s.receiver
  opened : ∀ fd, s.conns fd ≠ none → IsInt4 fd
  semLockSigr : r.semLockSigr = s.side.semLockSigr
  processorR : r.processorR = s.side.processorR
  htable : r.htable = s.htable
  conns : r.conns = s.conns
  db : r.db = s.side.db

/-- The sizes of the table fit the buffer, and the addresses that are told the text. -/
def Fits (s : State) (turn : Turn) : Prop :=
  match turn.action with
  | .event fd => ∀ conn ∈ s.conns fd, ∀ size ∈ Hash.hget s.htable (receiverKey conn.names),
      size ≤ messageSize
  | .others (.sendMsgToReceiver _) => ∀ row ∈ s.db.receiversComms, (intText row.rdata1).length ≤ 17
  | _ => True

section Buffer

variable {m : Memory} {fd : Int} {size : Nat} {data : Bytea}

theorem reads_beginMessage (m : Memory) (range : IsInt4 fd) (fits : size ≤ messageSize) :
    Reads (beginMessage m fd size) (.reading fd size 0) (.reading fd size []) := by
  have data1 : intAt (beginMessage m fd size) 0 = fd := by
    rw [beginMessage, SenderBytes.intAt_copyTo, SenderSide.atoi_self range]
  have filled : slice (beginMessage m fd size) 8 ([] : Bytea).length = [] := rfl
  have room : ([] : Bytea).length ≤ size := Nat.zero_le size
  exact .reading data1 filled room fits

theorem slice_copyTo_next (m : Memory) (base : Nat) (more : Bytea)
    (filled : slice m base data.length = data) :
    slice (copyTo m (base + data.length) more) base (data ++ more).length = data ++ more := by
  have first : slice (copyTo m (base + data.length) more) base data.length = data := by
    rw [slice_copyTo_apart _ (.inr le_rfl), filled]
  have second := slice_copyTo m (base + data.length) more
  calc
    _ = slice (copyTo m (base + data.length) more) base data.length ++
        slice (copyTo m (base + data.length) more) (base + data.length) more.length := by
      simp only [slice, List.length_append, List.range_add, List.map_append, List.map_map]
      congr 2
      funext i
      exact congrArg _ (Nat.add_assoc _ _ _).symm
    _ = data ++ more := by rw [first, second]

theorem newmsgDataAt_filled (data1 : intAt m 0 = fd) (filled : slice m 8 data.length = data)
    (fits : data.length ≤ messageSize) :
    newmsgDataAt (copyTo m 4 (intBytes data.length)) 0 = ⟨fd, data.length, data⟩ := by
  have most : messageSize = 131072 := rfl
  have range : IsInt4 (data.length : Int) := by
    unfold IsInt4 int4Min int4Max
    omega
  have before : intAt (copyTo m 4 (intBytes data.length)) 0 = fd := by
    rw [SenderBytes.intAt_copyTo_apart _ _ (.inl le_rfl), data1]
  have size : intAt (copyTo m 4 (intBytes data.length)) (0 + 4) = data.length := by
    rw [Nat.zero_add, SenderBytes.intAt_copyTo, SenderSide.atoi_self range]
  have behind : slice (copyTo m 4 (intBytes data.length)) (0 + 8) data.length = data := by
    rw [Nat.zero_add, slice_copyTo_apart _ (.inl (by rw [length_intBytes])), filled]
  rw [newmsgDataAt, size, Int.toNat_natCast, before, behind]

end Buffer

section Steps

variable {r : State} {s : Reception.State}

theorem within_put (c : Channel) (m : Memory) (idx : Nat) {bytes : Bytea}
    (small : bytes.length ≤ c.partition) : Within c idx m
      (copyTo (copyTo m (c.blkptr idx) (List.replicate c.partition 0)) (c.blkptr idx) bytes) :=
  (SenderBytes.within_clear c m idx).trans (Bitmap.within_copyTo small)

theorem within_copyFrom (c : Channel) (m : Memory) (idx : Nat) (n : Memory) (start : Nat)
    {count : Nat} (small : count ≤ c.partition) : Within c idx m
      (copyFrom (copyTo m (c.blkptr idx) (List.replicate c.partition 0)) (c.blkptr idx) n start
        count) := by
  intro a outside
  rw [copyFrom_outside _ _ _ (by omega)]
  exact SenderBytes.within_clear c m idx a outside

theorem upper_blkptr {idx : Nat} (member : idx ∈ Block.region 2) :
    commrBlock.blkptr 40 ≤ commrBlock.blkptr idx :=
  Nat.add_le_add_left (Nat.mul_le_mul_right _ (Block.mem_upper.mp member).1) _

theorem lower_blkptr {idx : Nat} (member : idx ∈ Block.region 1) :
    commrBlock.blkptr idx < commrBlock.blkptr 40 :=
  Nat.add_lt_add_left (Nat.mul_lt_mul_of_pos_right (Block.mem_lower.mp member) (by decide)) _

theorem holds_lower {m : Memory} {idx : Nat} {record : ReceiverComm}
    (member : idx ∈ Block.region 1) (holds : HoldsComm m (commrBlock.blkptr idx) record) :
    record = .capacity (capacityInfoAt m (commrBlock.blkptr idx)) := by
  cases record with
  | capacity cpif => rw [holds.2]
  | connection rcvm => exact absurd (lower_blkptr member) (Nat.not_lt.mpr holds.1)

theorem holds_upper {m : Memory} {idx : Nat} {record : ReceiverComm}
    (member : idx ∈ Block.region 2) (holds : HoldsComm m (commrBlock.blkptr idx) record) :
    record = .connection (receiversMessageAt m (commrBlock.blkptr idx)) := by
  cases record with
  | capacity cpif => exact absurd holds.1 (Nat.not_lt.mpr (upper_blkptr member))
  | connection rcvm => rw [holds.2]

theorem refines_sendToProcessor (refines : Refines r s) {buffer : Memory} {nmsg : NewmsgData}
    (filled : newmsgDataAt buffer 0 = nmsg) (fits : nmsg.data2 ≤ messageSize) :
    Refines (sendToProcessor r buffer)
      { s with side := Wakeups.sendToProcessor s.side nmsg } := by
  unfold sendToProcessor Wakeups.sendToProcessor
  cases found : s.side.datar.getSubblock false 3 with
  | none =>
      simp only [if_neg (refines.datar.scan_none found)]
      exact refines
  | some idx =>
      obtain ⟨nonneg, position, low, free⟩ := refines.datar.scan_some found
      have small : newmsgSize ≤ datarBlock.partition := by decide
      have within := within_copyFrom datarBlock r.datar idx buffer 0 small
      have moved (m : Memory) : newmsgDataAt (copyFrom m (datarBlock.blkptr idx) buffer 0 newmsgSize)
          (datarBlock.blkptr idx) = nmsg :=
        (newmsgDataAt_moved (fun _ => copyFrom_inside m _ buffer 0) (filled ▸ fits)).trans filled
      simp only [if_pos nonneg, position]
      exact { refines with
        datar := refines.datar.write local_data free low within ⟨moved _, fits⟩
        semLockSigr := congrArg (· + 1) refines.semLockSigr }

theorem refines_sendMessageToProcessor (refines : Refines r s) {rcvm : ReceiversMessage}
    (ranged : Ranged rcvm) : Refines (sendMessageToProcessor r rcvm)
      { s with side := Wakeups.sendMessageToProcessor s.side rcvm } := by
  unfold sendMessageToProcessor Wakeups.sendMessageToProcessor
  cases found : s.side.commr.getSubblock false 2 with
  | none =>
      simp only [if_neg (refines.commr.scan_none found)]
      exact refines
  | some idx =>
      obtain ⟨nonneg, position, low, free⟩ := refines.commr.scan_some found
      have member := (Block.getSubblock_some found).1
      have small : (receiversMessageBytes rcvm).length ≤ commrBlock.partition := by
        rw [length_receiversMessageBytes]
        decide
      have within := within_put commrBlock r.commr idx small
      simp only [if_pos nonneg, position]
      exact { refines with
        commr := refines.commr.write local_comm free low within
          ⟨upper_blkptr member, receiversMessageAt_copyTo ranged⟩
        semLockSigr := congrArg (· + 1) refines.semLockSigr }

/-- What the second `memcpy` leaves in the partition is never looked at. -/
theorem rel_getMessageFromProcessor (refines : Refines r s) (stack : Bytes capacityInfoSize) :
    Option.Rel Refines (getMessageFromProcessor r stack) (Reception.getMessageFromProcessor s) := by
  unfold getMessageFromProcessor Reception.getMessageFromProcessor
  cases found : s.side.commr.getSubblock true 1 with
  | none =>
      simp only [if_neg (refines.commr.scan_none found)]
      exact .some refines
  | some idx =>
      obtain ⟨nonneg, position, low, taken⟩ := refines.commr.scan_some found
      obtain ⟨record, stored, holds⟩ := refines.commr.records idx low taken
      have capacity := holds_lower (Block.getSubblock_some found).1 holds
      have small : stack.1.length ≤ commrBlock.partition := by
        rw [stack.2]
        decide
      have within : Within commrBlock idx r.commr (copyTo r.commr (commrBlock.blkptr idx) stack) :=
        Bitmap.within_copyTo small
      simp only [if_pos nonneg, position, stored, capacity, refines.htable]
      cases Hash.hput s.htable (capacityInfoAt r.commr (commrBlock.blkptr idx)).ipaddress
          (capacityInfoAt r.commr (commrBlock.blkptr idx)).capacity with
      | none => exact .none
      | some put =>
          have same : Wakeups.getMessageFromProcessor s.side =
              { s.side with commr := s.side.commr.toggleBit idx } := by
            rw [Wakeups.getMessageFromProcessor, found]
          rw [Option.map_some, Option.map_some, same]
          exact .some { refines with
            commr := refines.commr.free local_comm taken low within, htable := rfl }

theorem Refines.setConn (refines : Refines r s) {fd : Int} (range : IsInt4 fd)
    (conn : Option Connection) : Refines { r with conns := Function.update r.conns fd conn }
      { s with conns := Function.update s.conns fd conn } := by
  refine { refines with opened := ?_, conns := ?_ }
  · intro other open'
    change Function.update s.conns fd conn other ≠ none at open'
    by_cases same : other = fd
    · exact same ▸ range
    · rw [Function.update_of_ne same] at open'
      exact refines.opened other open'
  · rw [refines.conns]

theorem isInt4_toInt (a : BitVec 32) : IsInt4 a.toInt := by
  have low := BitVec.le_toInt a
  have high := BitVec.toInt_lt (x := a)
  unfold IsInt4 int4Min int4Max
  omega

theorem ranged_accept {fd : Int} (range : IsInt4 fd) (names : Inbound) :
    Ranged ⟨fd, (htonl names.peername).toInt, 2⟩ :=
  have two : IsInt4 2 := by decide
  ⟨range, isInt4_toInt _, two⟩

theorem ranged_end {fd : Int} (range : IsInt4 fd) : Ranged ⟨fd, 0, 1⟩ :=
  have zero : IsInt4 0 := by decide
  have one : IsInt4 1 := by decide
  ⟨range, zero, one⟩

theorem refines_accept (refines : Refines r s) {fd : Int} (range : IsInt4 fd) (names : Inbound) :
    Refines (accept r fd names) (Reception.accept s fd names) := by
  have told := refines_sendMessageToProcessor refines (ranged_accept range names)
  have conns : (sendMessageToProcessor r ⟨fd, (htonl names.peername).toInt, 2⟩).conns = r.conns :=
    told.conns.trans refines.conns.symm
  have set := told.setConn range (some ⟨names, []⟩)
  rw [conns] at set
  exact set

theorem refines_endConnection (refines : Refines r s) {fd : Int} (range : IsInt4 fd) :
    Refines (endConnection r fd) (Reception.endConnection s fd) := by
  have told := refines_sendMessageToProcessor refines (ranged_end range)
  have conns : (sendMessageToProcessor r ⟨fd, 0, 1⟩).conns = r.conns :=
    told.conns.trans refines.conns.symm
  have set := told.setConn range none
  rw [conns] at set
  exact set

theorem rel_event (refines : Refines r s) {fd : Int} {conn : Connection} (range : IsInt4 fd)
    (fits : ∀ size ∈ Hash.hget s.htable (receiverKey conn.names), size ≤ messageSize) :
    Option.Rel Refines (event r fd conn) (Reception.event s fd conn) := by
  unfold event Reception.event
  rw [refines.htable]
  cases found : Hash.hget s.htable (receiverKey conn.names) with
  | none => exact .none
  | some size =>
      have small := fits size found
      rw [Option.map_some, Option.map_some]
      split
      · have room : size.toNat ≤ messageSize := by omega
        exact .some { refines with reads := reads_beginMessage r.nmsg range room, htable := rfl }
      · exact .some (refines_endConnection refines range)

/-- The message is whole at the same `read`, and then the buffer has its fields. -/
theorem rel_read (refines : Refines r s) {fd : Int} {size count : Nat} {data : Bytea}
    (data1 : intAt r.nmsg 0 = fd) (filled : slice r.nmsg 8 data.length = data)
    (fits : size ≤ messageSize) :
    Option.Rel Refines (read r fd size data.length count) (Reception.read s fd size data count) := by
  unfold read Reception.read
  rw [data1, refines.conns]
  cases found : s.conns fd with
  | none => exact .none
  | some conn =>
      have range : IsInt4 fd := refines.opened fd (by simp [found])
      rw [Option.bind_some, Option.bind_some]
      split
      · next possible =>
          obtain ⟨positive, room, available⟩ := possible
          let total := data ++ conn.stream.take count
          have length : total.length = data.length + count := by
            rw [List.length_append, List.length_take, Nat.min_eq_left available]
          have taken := refines.setConn range (some ⟨conn.names, conn.stream.drop count⟩)
          rw [refines.conns] at taken
          have next : slice (copyTo r.nmsg (8 + data.length) (conn.stream.take count)) 8
              total.length = total := slice_copyTo_next r.nmsg 8 _ filled
          have first : intAt (copyTo r.nmsg (8 + data.length) (conn.stream.take count)) 0 = fd := by
            rw [← data1]
            apply intAt_moved
            intro i small
            exact copyTo_outside _ (.inl (by omega))
          simp only [← length]
          by_cases whole : total.length = size
          · have message := newmsgDataAt_filled first next (whole.trans_le fits)
            have sent := refines_sendToProcessor taken message (whole.trans_le fits)
            rw [if_pos whole, if_pos whole]
            exact .some { sent with reads := reads_beginMessage _ range fits }
          · rw [if_neg whole, if_neg whole]
            have less : total.length ≤ size := by omega
            exact .some { taken with reads := .reading first next less fits }
      · exact .none

theorem refines_getMessageFromReceiver (refines : Refines r s) :
    Refines (getMessageFromReceiver r)
      { s with side := Wakeups.getMessageFromReceiver s.side } := by
  unfold getMessageFromReceiver Wakeups.getMessageFromReceiver
  cases found : s.side.commr.getSubblock true 2 with
  | none =>
      simp only [if_neg (refines.commr.scan_none found)]
      exact { refines with processorR := rfl }
  | some idx =>
      obtain ⟨nonneg, position, low, taken⟩ := refines.commr.scan_some found
      obtain ⟨record, stored, holds⟩ := refines.commr.records idx low taken
      have message := holds_upper (Block.getSubblock_some found).1 holds
      simp only [if_pos nonneg, position, stored, message, Wakeups.storeCommr, refines.db]
      exact { refines with
        commr := refines.commr.clear local_comm taken low, processorR := rfl, db := rfl }

theorem rel_getDataFromReceiver (refines : Refines r s) (id : Uuid) :
    Option.Rel (fun r side => Refines r { s with side := side }) (getDataFromReceiver r id)
      (Wakeups.getDataFromReceiver s.side id) := by
  unfold getDataFromReceiver Wakeups.getDataFromReceiver
  cases found : s.side.datar.getSubblock true 3 with
  | none =>
      simp only [if_neg (refines.datar.scan_none found)]
      exact .some { refines with processorR := rfl }
  | some idx =>
      obtain ⟨nonneg, position, low, taken⟩ := refines.datar.scan_some found
      obtain ⟨nmsg, stored, holds⟩ := refines.datar.records idx low taken
      have whole : nmsg.data.take nmsg.data2 = nmsg.data := by
        rw [← holds.1]
        exact List.take_of_length_le (Nat.le_of_eq (length_slice _ _ _))
      simp only [if_pos nonneg, position, stored, holds.1, refines.db, Option.bind_eq_bind,
        Option.bind_some, whole]
      cases (s.side.db.storeData id nmsg.data1 nmsg.data).toOption with
      | none => exact .none
      | some db =>
          exact .some { refines with
            datar := refines.datar.clear local_data taken low, processorR := rfl, db := rfl }

theorem rel_sendMsgToReceiver (refines : Refines r s) {rcomid : Nat}
    (short : ∀ row ∈ s.side.db.receiversComms, (intText row.rdata1).length ≤ 17) :
    Option.Rel (fun r side => Refines r { s with side := side }) (sendMsgToReceiver r rcomid)
      (Wakeups.sendMsgToReceiver s.side rcomid) := by
  unfold sendMsgToReceiver Wakeups.sendMsgToReceiver
  cases found : s.side.commr.getSubblock false 1 with
  | none =>
      simp only [if_neg (refines.commr.scan_none found)]
      exact .some { refines with processorR := rfl }
  | some idx =>
      obtain ⟨nonneg, position, low, free⟩ := refines.commr.scan_some found
      have cleared := SenderBytes.within_clear commrBlock r.commr idx
      simp only [if_pos nonneg, position, refines.db]
      split
      · exact .some { refines with
          commr := refines.commr.within local_comm free low cleared, processorR := rfl, db := rfl }
      · cases read : s.side.db.prGetcomms rcomid with
        | none => exact .none
        | some pair =>
            obtain ⟨row, db⟩ := pair
            have text := short row (Wakeups.prGetcomms_some read).1
            have small : capacityInfoSize ≤ commrBlock.partition := by decide
            have within := within_copyFrom commrBlock r.commr idx (cpifOf row) 0 small
            have lower := lower_blkptr (Block.getSubblock_some found).1
            have moved (m : Memory) : capacityInfoAt (copyFrom m (commrBlock.blkptr idx) (cpifOf row)
                0 capacityInfoSize) (commrBlock.blkptr idx) = capacityInfo row :=
              (capacityInfoAt_moved fun _ => copyFrom_inside m _ _ 0).trans
                (capacityInfoAt_cpifOf text)
            exact .some { refines with
              commr := refines.commr.write local_comm free low within ⟨lower, moved _⟩
              processorR := rfl
              db := rfl }

theorem rel_other (refines : Refines r s) {a : Wakeups.Action} {stack : Bytes capacityInfoSize}
    (fits : Fits r ⟨.others a, stack⟩) : Option.Rel Refines (other r a)
      (Reception.step s (.others a)) := by
  -- what a step of the side relates, a step of the whole does
  have lift {x : Option State} {y : Option Wakeups.State}
      (rel : Option.Rel (fun r side => Refines r { s with side := side }) x y) :
      Option.Rel Refines x (y.map fun side => { s with side := side }) := by
    cases rel with
    | none => exact .none
    | some both => exact .some both
  have place := refines.processorR
  cases a with
  | sendToProcessor nmsg => exact .none
  | sendMessageToProcessor rcvm => exact .none
  | getMessageFromProcessor => exact .none
  | capacity row =>
      exact .some { refines with db := congrArg (·.createComms row) refines.db }
  | notify =>
      apply lift
      simp only [other, Wakeups.step, refines.db]
      cases s.side.db.noti1receiver with
      | zero => exact .none
      | succ noti =>
          exact .some { refines with semLockSigr := congrArg (· + 1) refines.semLockSigr, db := rfl }
  | waitSigr =>
      apply lift
      simp only [other, Wakeups.step, place, refines.semLockSigr]
      cases s.side.processorR with
      | waiting =>
          cases s.side.semLockSigr with
          | zero => exact .none
          | succ sigr => exact .some { refines with processorR := rfl, semLockSigr := rfl }
      | _ => exact .none
  | getMessageFromReceiver =>
      apply lift
      simp only [other, Wakeups.step, place]
      cases s.side.processorR with
      | message => exact .some (refines_getMessageFromReceiver refines)
      | _ => exact .none
  | getDataFromReceiver id =>
      apply lift
      simp only [other, Wakeups.step, place]
      cases s.side.processorR with
      | data => exact rel_getDataFromReceiver refines id
      | _ => exact .none
  | sendMsgToReceiver rcomid =>
      apply lift
      simp only [other, Wakeups.step, place]
      cases s.side.processorR with
      | comms => exact rel_sendMsgToReceiver refines (refines.db ▸ fits)
      | _ => exact .none

theorem bisimilar :
    Bisimilar step (fun s (turn : Turn) => Reception.step s turn.action) Fits Refines := by
  intro r s turn refines fits
  obtain ⟨action, stack⟩ := turn
  have reads := refines.reads
  cases action with
  | arrive fd data =>
      simp only [step, Reception.step, refines.conns]
      cases found : s.conns fd with
      | none => exact .none
      | some conn =>
          have range : IsInt4 fd := refines.opened fd (by simp [found])
          have set := refines.setConn range (some ⟨conn.names, conn.stream ++ data⟩)
          rw [refines.conns] at set
          exact .some set
  | accept fd names =>
      simp only [step, Reception.step, refines.conns]
      generalize r.receiver = place, s.receiver = turn at reads ⊢
      cases reads with
      | waiting =>
          cases s.conns fd with
          | some conn => exact .none
          | none =>
              dsimp only
              split
              · next usable =>
                  have range : IsInt4 fd := by
                    unfold IsInt4 int4Min
                    exact ⟨by omega, usable.2⟩
                  exact .some (refines_accept refines range names)
              · exact .none
      | reading => exact .none
  | getMessageFromProcessor =>
      simp only [step, Reception.step]
      generalize r.receiver = place, s.receiver = turn at reads ⊢
      cases reads with
      | waiting => exact rel_getMessageFromProcessor refines stack
      | reading => exact .none
  | event fd =>
      simp only [step, Reception.step, refines.conns]
      generalize r.receiver = place, s.receiver = turn at reads ⊢
      cases reads with
      | waiting =>
          cases found : s.conns fd with
          | none => exact .none
          | some conn =>
              have range : IsInt4 fd := refines.opened fd (by simp [found])
              have small := fits conn (by rw [refines.conns, found]; rfl)
              rw [refines.htable] at small
              exact rel_event refines range small
      | reading => exact .none
  | read count =>
      simp only [step, Reception.step]
      generalize r.receiver = place, s.receiver = turn at reads ⊢
      cases reads with
      | waiting => exact .none
      | reading data1 filled room fits => exact rel_read refines data1 filled fits
  | again =>
      simp only [step, Reception.step]
      generalize r.receiver = place, s.receiver = turn at reads ⊢
      cases reads with
      | waiting => exact .none
      | reading => exact .some { refines with reads := .waiting }
  | endConnection fd =>
      simp only [step, Reception.step, refines.conns]
      generalize r.receiver = place, s.receiver = turn at reads ⊢
      cases reads with
      | waiting =>
          cases found : s.conns fd with
          | none => exact .none
          | some conn =>
              exact .some (refines_endConnection refines (refines.opened fd (by simp [found])))
      | reading => exact .none
  | others a => exact rel_other refines fits

end Steps

/-- The fields fit the partitions, and what an earlier message left in the buffer, or the stack in
a partition, is never read as a record: the programs do with the bytes what they do with the
records. The records are those of a run of the shared blocks. -/
theorem buffer_refines {root : Uuid} {own : SelfInfo} {size : Nat} {nmsg : Memory}
    {turns : List Turn} (fits : Guarded step Fits (initial root own size nmsg) turns) :
    Option.Rel
      (fun r s => Refines r s ∧
        ∃ sides, run Wakeups.step (Wakeups.initial root own) sides = some s.side)
      (run step (initial root own size nmsg) turns)
      (run Reception.step (Reception.initial root own size) (turns.map Turn.action)) := by
  have start : Refines (initial root own size nmsg) (Reception.initial root own size) := by
    constructor
    · exact Bitmap.agrees_zero
    · exact Bitmap.agrees_zero
    · exact .waiting
    · exact fun fd open' => absurd rfl open'
    all_goals rfl
  have related := bisimilar.run start fits
  rw [run_map]
  cases done : run step (initial root own size nmsg) turns with
  | none =>
      rw [done] at related
      rw [rel_none related]
      exact .none
  | some r =>
      rw [done] at related
      obtain ⟨s, done', refines⟩ := rel_some related
      rw [done']
      exact .some ⟨refines, Reception.side_run ((run_map ..).trans done')⟩

instance decidableFits (s : State) : ∀ turn, Decidable (Fits s turn)
  | ⟨.event fd, _⟩ => inferInstanceAs (Decidable (∀ conn ∈ s.conns fd,
      ∀ size ∈ Hash.hget s.htable (receiverKey conn.names), size ≤ messageSize))
  | ⟨.others (.sendMsgToReceiver _), _⟩ =>
      inferInstanceAs (Decidable (∀ row ∈ s.db.receiversComms, (intText row.rdata1).length ≤ 17))
  | ⟨.others (.sendToProcessor _), _⟩ | ⟨.others (.sendMessageToProcessor _), _⟩
    | ⟨.others .getMessageFromProcessor, _⟩ | ⟨.others (.capacity _), _⟩ | ⟨.others .notify, _⟩
    | ⟨.others .waitSigr, _⟩ | ⟨.others .getMessageFromReceiver, _⟩
    | ⟨.others (.getDataFromReceiver _), _⟩ | ⟨.arrive _ _, _⟩ | ⟨.accept _ _, _⟩
    | ⟨.getMessageFromProcessor, _⟩ | ⟨.read _, _⟩ | ⟨.again, _⟩ | ⟨.endConnection _, _⟩ =>
      inferInstanceAs (Decidable True)

def sampleOwn : SelfInfo := ⟨ascii "   M3", 16843009, 6001, 3⟩

def sample : List Turn :=
  let stack : Bytes capacityInfoSize := ⟨List.replicate 24 170, by decide⟩
  ([.accept 5 ⟨BitVec.ofNat 32 16843009, BitVec.ofNat 32 2130706433⟩,
    .others (.capacity ⟨ascii "   M3", 16843009, some 6001, 7000, some 3⟩), .others .notify,
    .others .waitSigr, .others .getMessageFromReceiver,
    .others (.getDataFromReceiver (Uuid.ofNat 1)), .others (.sendMsgToReceiver 1),
    .getMessageFromProcessor, .arrive 5 [1, 2, 3, 4], .event 5,
    .read 2, .read 1, .read 1, .again, .others .waitSigr, .others .getMessageFromReceiver,
    .others (.getDataFromReceiver (Uuid.ofNat 2))] : List Reception.Action).map fun a => ⟨a, stack⟩

theorem sample_refines :
    ∃ r s, run step (initial (Uuid.ofNat 0) sampleOwn 10 fun _ => 255) sample = some r ∧
      run Reception.step (Reception.initial (Uuid.ofNat 0) sampleOwn 10)
        (sample.map Turn.action) = some s ∧ Refines r s := by
  have fits : Guarded step Fits (initial (Uuid.ofNat 0) sampleOwn 10 fun _ => 255) sample := by
    decide +kernel
  have related := buffer_refines fits
  have ends : (run step (initial (Uuid.ofNat 0) sampleOwn 10 fun _ => 255) sample).isSome = true := by
    decide +kernel
  obtain ⟨r, done⟩ := Option.isSome_iff_exists.mp ends
  rw [done] at related
  obtain ⟨s, done', refines, -⟩ := rel_some related
  exact ⟨r, s, done, done', refines⟩

end ReceiverBytes

end FileSharing
