import FileSharing.Database.Consensus
import FileSharing.Database.Operations
import FileSharing.Shared.Partition
import FileSharing.Shared.Records

/-! The sending side: `processor_s`, `sender`, the two blocks between them, the descriptors
of `sender`, and the database. A critical section is one step, except that two statements
on the database which are not one transaction are two. -/

namespace FileSharing

open Library

namespace SenderSide

inductive ProcessorS where
  | waiting
  | reading
  | deleting (idx scommid : Nat)
  | commanding
  | marking (idx : Nat) (row : SendersComm)
  | giving
  deriving DecidableEq

inductive Sender where
  | waiting
  | receiving
  | executing (command : SenderComm)
  | reporting (cncsts : ConnectionStatus)
  | fetching
  | sending (sndmsg : SendMessage) (totalDataSent : Int)
  | settling (msgsts : MessageStatus)
  deriving DecidableEq

/-- An open descriptor; a socket whose `connect` failed is never closed. -/
inductive Socket where
  | connected (ipaddress : Int)
  | failed
  deriving DecidableEq, Repr

structure State where
  datas : Block SendMessage
  comms : Block SenderComm
  semLockSigs : Nat
  semLockSigps : Nat
  processorS : ProcessorS
  sender : Sender
  sockets : Int → Option Socket
  db : Db

/-- `choice` is the row that a query without a total order returns first. -/
inductive Action where
  | signal
  | waitSigps
  | readMsg
  | deleteComms
  | sendMsg (choice : Nat)
  | updateComms
  | giveData (choice : Nat)
  | waitSigs
  | getMessage
  | connect (fd : Option Int) (established : Bool)
  | close
  | reportConnection
  | getData
  | send (dataSent : Int)
  | reportMessage
  | database (op : Operation)

/-- `atoi` on the digits of a number. -/
def atoi (n : Int) : Int := (BitVec.ofInt 32 n).toInt

theorem atoi_self {n : Int} (range : IsInt4 n) : atoi n = n := by
  unfold IsInt4 int4Min int4Max at range
  rw [atoi, BitVec.toInt_ofInt]
  exact Int.bmod_eq_of_le (by omega) (by omega)

theorem atoi_range (n : Int) : IsInt4 (atoi n) := by
  have low := BitVec.le_toInt (BitVec.ofInt 32 n)
  have high := BitVec.toInt_lt (x := BitVec.ofInt 32 n)
  unfold IsInt4 atoi int4Min int4Max
  omega

/-- Between two statements `processor_s` holds the lock of the comms block. -/
def ProcessorS.locksComms : ProcessorS → Bool
  | .deleting _ _ => true
  | .marking _ _ => true
  | _ => false

/-- `read_msg_from_sender`, up to the first statement. It is taken that the text of the address
fits its buffer, as it does for each `int` from -999999999 on. -/
def readMsg (s : State) : State :=
  match s.comms.getSubblock true 2 with
  | none => { s with processorS := .commanding }
  | some idx =>
      match s.comms.partitions idx with
      | some (.connection cncsts) => { s with
          processorS := .deleting idx cncsts.scommid
          db := s.db.sUpdateConns cncsts.ipaddress cncsts.fd (if cncsts.fd ≥ 0 then 2 else 1) }
      | some (.message msgsts) => { s with
          comms := s.comms.toggleBit idx
          processorS := .commanding
          db := s.db.updateStatus msgsts.uuid (msgsts.status % 256) }
      | _ => { s with comms := s.comms.toggleBit idx, processorS := .commanding }

/-- `s_get_comms` before its `LIMIT`. -/
def commands (db : Db) : List SendersComm :=
  db.sendersComms.filter fun sm => sm.mtype = .openConn || sm.mtype = .closeConn

/-- The record that `retrive_comms_from_database` writes. -/
def commandOf (row : SendersComm) : SenderComm :=
  if row.mtype = .openConn then .openConn ⟨atoi row.mdata2, atoi row.mdata1, row.scommid⟩
  else .closeConn ⟨atoi row.mdata2, atoi row.mdata1, row.scommid⟩

/-- `send_msg_to_sender`, up to the first statement. -/
def sendMsg (s : State) (choice : Nat) : Option State :=
  match s.comms.getSubblock false 1 with
  | none => some { s with processorS := .giving }
  | some idx =>
      match commands s.db with
      | [] => some { s with processorS := .giving }
      | rows => (rows[choice]?).map fun row => { s with processorS := .marking idx row }

/-- What `retrive_data_from_database` writes for a row of `s_get_info`. -/
def sendMessageOf (sc : SendingConn) (js : Job) : SendMessage :=
  ⟨js.jobdata.length, atoi sc.sfd, js.jobid, js.jobdata⟩

/-- `s_get_info`, ordered by the priority; it returns nothing also when a priority is not
a number. -/
def firstInfo (db : Db) (choice : Nat) : Option (Option (SendingConn × Job)) :=
  match db.sGetInfo.mapM fun row => int4in row.2.jpriority with
  | .error _ => some none
  | .ok [] => some none
  | .ok priorities => do
      let row ← db.sGetInfo[choice]?
      let first ← priorities[choice]?
      if priorities.all (· ≤ first) then some (some row) else none

/-- `give_data_to_sender`: its statements are one transaction. -/
def giveData (s : State) (choice : Nat) : Option State :=
  match s.datas.getSubblock false 3 with
  | none => some { s with processorS := .waiting }
  | some idx => (firstInfo s.db choice).map fun found =>
      match found with
      | none => { s with processorS := .waiting }
      | some (sc, js) => { s with
          datas := s.datas.write idx (sendMessageOf sc js)
          semLockSigs := s.semLockSigs + 1
          processorS := .waiting
          db := s.db.appendW js.jobid }

/-- `get_message_from_processor`; a record of another type is passed over. -/
def getMessage (s : State) : State :=
  match s.comms.getSubblock true 1 with
  | none => { s with sender := .fetching }
  | some idx => { s with
      comms := s.comms.toggleBit idx
      sender := match s.comms.partitions idx with
        | some (.openConn opncn) => .executing (.openConn opncn)
        | some (.closeConn clscn) => .executing (.closeConn clscn)
        | _ => .fetching }

def getData (s : State) : State :=
  match s.datas.getSubblock true 3 with
  | none => { s with sender := .waiting }
  | some idx => { s with
      datas := s.datas.toggleBit idx
      sender := match s.datas.partitions idx with
        | some sndmsg => .sending sndmsg 0
        | none => .waiting }

/-- `create_connection`: `socket` returns a number that is free, or none. -/
def connect (s : State) (opncn : OpenConnection) (fd : Option Int) (established : Bool) :
    Option State :=
  match fd with
  | none => some { s with sender := .reporting ⟨-1, opncn.ipaddress, opncn.scommid⟩ }
  | some fd =>
      if 0 ≤ fd ∧ fd ≤ int4Max ∧ s.sockets fd = none then some { s with
        sockets := Function.update s.sockets fd
          (some (if established then .connected opncn.ipaddress else .failed))
        sender := .reporting ⟨if established then fd else -1, opncn.ipaddress, opncn.scommid⟩ }
      else none

/-- `send_message_to_processor`: `attempts` starts at 0, so the loop makes one turn. -/
def sendMessageToProcessor (s : State) (record : SenderComm) (next : Sender) : State :=
  match s.comms.getSubblock false 2 with
  | some idx => { s with
      comms := s.comms.write idx record
      semLockSigps := s.semLockSigps + 1
      sender := next }
  | none => { s with sender := next }

def sendTurn (s : State) (sndmsg : SendMessage) (totalDataSent dataSent : Int) : State :=
  let total := totalDataSent + dataSent
  if total < sndmsg.size ∧ dataSent ≠ 0 then { s with sender := .sending sndmsg total }
  else { s with sender := .settling ⟨if total < sndmsg.size then 0 else 1, sndmsg.uuid⟩ }

/-- What the other programs and the user do: `initial_sender` sets the status of a job that
it took in S-5. -/
def others (db : Db) : Operation → Bool
  | .retrieve _ _ => false
  | .updateConns _ _ _ => false
  | .updateComms _ => false
  | .deleteComms _ => false
  | .updateStatus id _ => db.jobScheduler.any fun job => job.jobid = id && job.jstate = .S5
  | _ => true

def step (s : State) : Action → Option State
  | .signal => some { s with semLockSigps := s.semLockSigps + 1 }
  | .waitSigps =>
      match s.processorS, s.semLockSigps with
      | .waiting, sigps + 1 => some { s with semLockSigps := sigps, processorS := .reading }
      | _, _ => none
  | .readMsg =>
      match s.processorS with
      | .reading => some (readMsg s)
      | _ => none
  | .deleteComms =>
      match s.processorS with
      | .deleting idx scommid => some { s with
          comms := s.comms.toggleBit idx
          processorS := .commanding
          db := s.db.sDeleteComms scommid }
      | _ => none
  | .sendMsg choice =>
      match s.processorS with
      | .commanding => sendMsg s choice
      | _ => none
  | .updateComms =>
      match s.processorS with
      | .marking idx row => some { s with
          comms := s.comms.write idx (commandOf row)
          semLockSigs := s.semLockSigs + 1
          processorS := .giving
          db := s.db.sUpdateComms row.scommid }
      | _ => none
  | .giveData choice =>
      match s.processorS with
      | .giving => giveData s choice
      | _ => none
  | .waitSigs =>
      match s.sender, s.semLockSigs with
      | .waiting, sigs + 1 => some { s with semLockSigs := sigs, sender := .receiving }
      | _, _ => none
  | .getMessage =>
      match s.sender, s.processorS.locksComms with
      | .receiving, false => some (getMessage s)
      | _, _ => none
  | .connect fd established =>
      match s.sender with
      | .executing (.openConn opncn) => connect s opncn fd established
      | _ => none
  | .close =>
      match s.sender with
      | .executing (.closeConn clscn) => some { s with
          sockets := Function.update s.sockets clscn.fd none
          sender := .reporting ⟨-1, clscn.ipaddress, clscn.scommid⟩ }
      | _ => none
  | .reportConnection =>
      match s.sender, s.processorS.locksComms with
      | .reporting cncsts, false => some (sendMessageToProcessor s (.connection cncsts) .fetching)
      | _, _ => none
  | .getData =>
      match s.sender with
      | .fetching => some (getData s)
      | _ => none
  | .send dataSent =>
      match s.sender with
      | .sending sndmsg total =>
          if -1 ≤ dataSent ∧ dataSent ≤ sndmsg.size then some (sendTurn s sndmsg total dataSent)
          else none
      | _ => none
  | .reportMessage =>
      match s.sender, s.processorS.locksComms with
      | .settling msgsts, false => some (sendMessageToProcessor s (.message msgsts) .waiting)
      | _, _ => none
  | .database op =>
      if others s.db op then (s.db.perform op).map fun db => { s with db := db } else none

inductive Moves (s : State) : Action → State → Prop
  | signal : Moves s .signal { s with semLockSigps := s.semLockSigps + 1 }
  | waitSigps {sigps : Nat} (place : s.processorS = .waiting) (count : s.semLockSigps = sigps + 1) :
      Moves s .waitSigps { s with semLockSigps := sigps, processorS := .reading }
  | readNothing (place : s.processorS = .reading) (none : s.comms.getSubblock true 2 = none) :
      Moves s .readMsg { s with processorS := .commanding }
  | readConnection {idx : Nat} {cncsts : ConnectionStatus} (place : s.processorS = .reading)
      (found : s.comms.getSubblock true 2 = some idx)
      (holds : s.comms.partitions idx = some (.connection cncsts)) :
      Moves s .readMsg { s with
        processorS := .deleting idx cncsts.scommid
        db := s.db.sUpdateConns cncsts.ipaddress cncsts.fd (if cncsts.fd ≥ 0 then 2 else 1) }
  | readMessage {idx : Nat} {msgsts : MessageStatus} (place : s.processorS = .reading)
      (found : s.comms.getSubblock true 2 = some idx)
      (holds : s.comms.partitions idx = some (.message msgsts)) :
      Moves s .readMsg { s with
        comms := s.comms.toggleBit idx
        processorS := .commanding
        db := s.db.updateStatus msgsts.uuid (msgsts.status % 256) }
  | readOther {idx : Nat} (place : s.processorS = .reading)
      (found : s.comms.getSubblock true 2 = some idx)
      (noConnection : ∀ cncsts, s.comms.partitions idx ≠ some (.connection cncsts))
      (noMessage : ∀ msgsts, s.comms.partitions idx ≠ some (.message msgsts)) :
      Moves s .readMsg { s with comms := s.comms.toggleBit idx, processorS := .commanding }
  | deleteComms {idx scommid : Nat} (place : s.processorS = .deleting idx scommid) :
      Moves s .deleteComms { s with
        comms := s.comms.toggleBit idx
        processorS := .commanding
        db := s.db.sDeleteComms scommid }
  | sendNothing {choice : Nat} (place : s.processorS = .commanding) :
      Moves s (.sendMsg choice) { s with processorS := .giving }
  | sendCommand {choice idx : Nat} {row : SendersComm} (place : s.processorS = .commanding)
      (found : s.comms.getSubblock false 1 = some idx) (listed : row ∈ commands s.db) :
      Moves s (.sendMsg choice) { s with processorS := .marking idx row }
  | updateComms {idx : Nat} {row : SendersComm} (place : s.processorS = .marking idx row) :
      Moves s .updateComms { s with
        comms := s.comms.write idx (commandOf row)
        semLockSigs := s.semLockSigs + 1
        processorS := .giving
        db := s.db.sUpdateComms row.scommid }
  | giveNothing {choice : Nat} (place : s.processorS = .giving)
      (nothing : s.datas.getSubblock false 3 = none ∨ firstInfo s.db choice = some none) :
      Moves s (.giveData choice) { s with processorS := .waiting }
  | giveJob {choice idx : Nat} {sc : SendingConn} {js : Job} (place : s.processorS = .giving)
      (found : s.datas.getSubblock false 3 = some idx)
      (first : firstInfo s.db choice = some (some (sc, js))) :
      Moves s (.giveData choice) { s with
        datas := s.datas.write idx (sendMessageOf sc js)
        semLockSigs := s.semLockSigs + 1
        processorS := .waiting
        db := s.db.appendW js.jobid }
  | waitSigs {sigs : Nat} (place : s.sender = .waiting) (count : s.semLockSigs = sigs + 1) :
      Moves s .waitSigs { s with semLockSigs := sigs, sender := .receiving }
  | getNothing (place : s.sender = .receiving) (none : s.comms.getSubblock true 1 = none) :
      Moves s .getMessage { s with sender := .fetching }
  | getCommand {idx : Nat} {command : SenderComm} (place : s.sender = .receiving)
      (free : s.processorS.locksComms = false) (found : s.comms.getSubblock true 1 = some idx)
      (holds : s.comms.partitions idx = some command) :
      Moves s .getMessage { s with
        comms := s.comms.toggleBit idx, sender := .executing command }
  | getOther {idx : Nat} (place : s.sender = .receiving) (free : s.processorS.locksComms = false)
      (found : s.comms.getSubblock true 1 = some idx) :
      Moves s .getMessage { s with comms := s.comms.toggleBit idx, sender := .fetching }
  | connectNone {opncn : OpenConnection} {established : Bool}
      (place : s.sender = .executing (.openConn opncn)) :
      Moves s (.connect none established)
        { s with sender := .reporting ⟨-1, opncn.ipaddress, opncn.scommid⟩ }
  | connect {opncn : OpenConnection} {fd : Int} (place : s.sender = .executing (.openConn opncn))
      (low : 0 ≤ fd) (high : fd ≤ int4Max) (unused : s.sockets fd = none) :
      Moves s (.connect (some fd) true) { s with
        sockets := Function.update s.sockets fd (some (.connected opncn.ipaddress))
        sender := .reporting ⟨fd, opncn.ipaddress, opncn.scommid⟩ }
  | connectFails {opncn : OpenConnection} {fd : Int}
      (place : s.sender = .executing (.openConn opncn)) (unused : s.sockets fd = none) :
      Moves s (.connect (some fd) false) { s with
        sockets := Function.update s.sockets fd (some .failed)
        sender := .reporting ⟨-1, opncn.ipaddress, opncn.scommid⟩ }
  | close {clscn : CloseConnection} (place : s.sender = .executing (.closeConn clscn)) :
      Moves s .close { s with
        sockets := Function.update s.sockets clscn.fd none
        sender := .reporting ⟨-1, clscn.ipaddress, clscn.scommid⟩ }
  | reportConnection {idx : Nat} {cncsts : ConnectionStatus} (place : s.sender = .reporting cncsts)
      (free : s.processorS.locksComms = false) (found : s.comms.getSubblock false 2 = some idx) :
      Moves s .reportConnection { s with
        comms := s.comms.write idx (.connection cncsts)
        semLockSigps := s.semLockSigps + 1
        sender := .fetching }
  | dropConnection {cncsts : ConnectionStatus} (place : s.sender = .reporting cncsts)
      (full : s.comms.getSubblock false 2 = none) :
      Moves s .reportConnection { s with sender := .fetching }
  | getNoData (place : s.sender = .fetching)
      (none : s.datas.getSubblock true 3 = none) :
      Moves s .getData { s with sender := .waiting }
  | getData {idx : Nat} {sndmsg : SendMessage} (place : s.sender = .fetching)
      (found : s.datas.getSubblock true 3 = some idx)
      (holds : s.datas.partitions idx = some sndmsg) :
      Moves s .getData { s with datas := s.datas.toggleBit idx, sender := .sending sndmsg 0 }
  | getEmpty {idx : Nat} (place : s.sender = .fetching)
      (found : s.datas.getSubblock true 3 = some idx) (holds : s.datas.partitions idx = none) :
      Moves s .getData { s with datas := s.datas.toggleBit idx, sender := .waiting }
  | sendMore {sndmsg : SendMessage} {total dataSent : Int} (place : s.sender = .sending sndmsg total) :
      Moves s (.send dataSent) { s with sender := .sending sndmsg (total + dataSent) }
  | sendDone {sndmsg : SendMessage} {total dataSent status : Int}
      (place : s.sender = .sending sndmsg total) :
      Moves s (.send dataSent) { s with sender := .settling ⟨status, sndmsg.uuid⟩ }
  | reportMessage {idx : Nat} {msgsts : MessageStatus} (place : s.sender = .settling msgsts)
      (free : s.processorS.locksComms = false) (found : s.comms.getSubblock false 2 = some idx) :
      Moves s .reportMessage { s with
        comms := s.comms.write idx (.message msgsts)
        semLockSigps := s.semLockSigps + 1
        sender := .waiting }
  | dropMessage {msgsts : MessageStatus} (place : s.sender = .settling msgsts)
      (full : s.comms.getSubblock false 2 = none) :
      Moves s .reportMessage { s with sender := .waiting }
  | database {op : Operation} {db : Db} (other : others s.db op = true)
      (done : s.db.perform op = some db) : Moves s (.database op) { s with db := db }

theorem firstInfo_mem {db : Db} {choice : Nat} {row : SendingConn × Job}
    (first : firstInfo db choice = some (some row)) : row ∈ db.sGetInfo := by
  unfold firstInfo at first
  split at first
  · cases first
  · cases first
  · obtain ⟨row', found, rest⟩ := Option.bind_eq_some_iff.mp first
    obtain ⟨priority, -, last⟩ := Option.bind_eq_some_iff.mp rest
    split at last
    · obtain rfl := Option.some.inj (Option.some.inj last)
      exact List.mem_of_getElem? found
    · cases last

section Moves

variable {s t : State}

theorem readMsg_moves (place : s.processorS = .reading) : Moves s .readMsg (readMsg s) := by
  unfold readMsg
  split
  · next none => exact .readNothing place none
  · next idx found =>
      split
      · next cncsts holds => exact .readConnection place found holds
      · next msgsts holds => exact .readMessage place found holds
      · next noConnection noMessage => exact .readOther place found noConnection noMessage

theorem sendMsg_moves {choice : Nat} (place : s.processorS = .commanding)
    (done : sendMsg s choice = some t) : Moves s (.sendMsg choice) t := by
  unfold sendMsg at done
  split at done
  · exact Option.some.inj done ▸ .sendNothing place
  · next idx found =>
      split at done
      · exact Option.some.inj done ▸ .sendNothing place
      · next rows =>
          obtain ⟨row, chosen, rfl⟩ := Option.map_eq_some_iff.mp done
          exact .sendCommand place found (List.mem_of_getElem? chosen)

theorem giveData_moves {choice : Nat} (place : s.processorS = .giving)
    (done : giveData s choice = some t) : Moves s (.giveData choice) t := by
  unfold giveData at done
  split at done
  · next full => exact Option.some.inj done ▸ .giveNothing place (.inl full)
  · next idx found =>
      obtain ⟨row, first, rfl⟩ := Option.map_eq_some_iff.mp done
      cases row with
      | none => exact .giveNothing place (.inr first)
      | some row => exact .giveJob place found first

theorem getMessage_moves (place : s.sender = .receiving) (free : s.processorS.locksComms = false) :
    Moves s .getMessage (getMessage s) := by
  unfold getMessage
  split
  · next none => exact .getNothing place none
  · next idx found =>
      split
      · next opncn holds => exact .getCommand place free found holds
      · next clscn holds => exact .getCommand place free found holds
      · exact .getOther place free found

theorem connect_moves {opncn : OpenConnection} {fd : Option Int} {established : Bool}
    (place : s.sender = .executing (.openConn opncn)) (done : connect s opncn fd established = some t) :
    Moves s (.connect fd established) t := by
  unfold connect at done
  cases fd with
  | none => exact Option.some.inj done ▸ .connectNone place
  | some fd =>
      dsimp only at done
      split at done
      · next range =>
          obtain ⟨low, high, unused⟩ := range
          cases established with
          | true => exact Option.some.inj done ▸ .connect place low high unused
          | false => exact Option.some.inj done ▸ .connectFails place unused
      · cases done

theorem getData_moves (place : s.sender = .fetching) : Moves s .getData (getData s) := by
  unfold getData
  split
  · next none => exact .getNoData place none
  · next idx found =>
      split
      · next sndmsg holds => exact .getData place found holds
      · next holds => exact .getEmpty place found holds

theorem step_moves {a : Action} (done : step s a = some t) : Moves s a t := by
  cases a with
  | signal => exact Option.some.inj done ▸ .signal
  | waitSigps =>
      simp only [step] at done
      split at done
      · next place count => exact Option.some.inj done ▸ .waitSigps place count
      · cases done
  | readMsg =>
      simp only [step] at done
      split at done
      · next place => exact Option.some.inj done ▸ readMsg_moves place
      · cases done
  | deleteComms =>
      simp only [step] at done
      split at done
      · next place => exact Option.some.inj done ▸ .deleteComms place
      · cases done
  | sendMsg choice =>
      simp only [step] at done
      split at done
      · next place => exact sendMsg_moves place done
      · cases done
  | updateComms =>
      simp only [step] at done
      split at done
      · next place => exact Option.some.inj done ▸ .updateComms place
      · cases done
  | giveData choice =>
      simp only [step] at done
      split at done
      · next place => exact giveData_moves place done
      · cases done
  | waitSigs =>
      simp only [step] at done
      split at done
      · next place count => exact Option.some.inj done ▸ .waitSigs place count
      · cases done
  | getMessage =>
      simp only [step] at done
      split at done
      · next place free => exact Option.some.inj done ▸ getMessage_moves place free
      · cases done
  | connect fd established =>
      simp only [step] at done
      split at done
      · next place => exact connect_moves place done
      · cases done
  | close =>
      simp only [step] at done
      split at done
      · next place => exact Option.some.inj done ▸ .close place
      · cases done
  | reportConnection =>
      simp only [step] at done
      split at done
      · next cncsts place free =>
          obtain rfl := Option.some.inj done
          unfold sendMessageToProcessor
          split
          · next found => exact .reportConnection place free found
          · next full => exact .dropConnection place full
      · cases done
  | getData =>
      simp only [step] at done
      split at done
      · next place => exact Option.some.inj done ▸ getData_moves place
      · cases done
  | send dataSent =>
      simp only [step] at done
      split at done
      · next place =>
          split at done
          · obtain rfl := Option.some.inj done
            unfold sendTurn
            dsimp only
            split
            · exact .sendMore place
            · exact .sendDone place
          · cases done
      · cases done
  | reportMessage =>
      simp only [step] at done
      split at done
      · next msgsts place free =>
          obtain rfl := Option.some.inj done
          unfold sendMessageToProcessor
          split
          · next found => exact .reportMessage place free found
          · next full => exact .dropMessage place full
      · cases done
  | database op =>
      simp only [step] at done
      split at done
      · next other =>
          obtain ⟨db, performed, rfl⟩ := Option.map_eq_some_iff.mp done
          exact .database other performed
      · cases done

end Moves

/-- The blocks are cleared by `processor_s`; the count of `sigs` depends on which program
creates the semaphore. -/
def initial (db : Db) (sigs : Nat) : State :=
  ⟨.empty, .empty, sigs, 0, .waiting, .waiting, fun _ => none, db⟩

end SenderSide

end FileSharing
