import FileSharing.Library.Runs
import FileSharing.Network.Addresses

/-! The semaphore `sigr` that wakes `processor_r`, and the three kinds of work it stands for:
data, messages about connections, and capacities for the receiver. A critical section is
one step: while it lasts, the block does not change, so the attempts of a writer agree. -/

namespace FileSharing

open Library Addresses

namespace Wakeups

/-- Where `processor_r` is in the loop of `run_process`. -/
inductive ProcessorR where
  | waiting
  | message
  | data
  | comms
  deriving DecidableEq

structure State where
  datar : Block NewmsgData
  commr : Block ReceiverComm
  semLockSigr : Nat
  processorR : ProcessorR
  db : Db

/-- `capacity` is the trigger on a row that was written to `sysinfo`, and `notify` one turn
of the inner loop of `notif`. -/
inductive Action where
  | sendToProcessor (nmsg : NewmsgData)
  | sendMessageToProcessor (rcvm : ReceiversMessage)
  | getMessageFromProcessor
  | capacity (row : SysInfo)
  | notify
  | waitSigr
  | getMessageFromReceiver
  | getDataFromReceiver (id : Uuid)
  | sendMsgToReceiver (rcomid : Nat)

/-- A block that is full stays as it is, and the record is dropped. -/
def sendToProcessor (s : State) (nmsg : NewmsgData) : State :=
  match s.datar.getSubblock false 3 with
  | some idx => { s with datar := s.datar.write idx nmsg, semLockSigr := s.semLockSigr + 1 }
  | none => s

def sendMessageToProcessor (s : State) (rcvm : ReceiversMessage) : State :=
  match s.commr.getSubblock false 2 with
  | some idx => { s with
      commr := s.commr.write idx (.connection rcvm), semLockSigr := s.semLockSigr + 1 }
  | none => s

def getMessageFromProcessor (s : State) : State :=
  match s.commr.getSubblock true 1 with
  | some idx => { s with commr := s.commr.toggleBit idx }
  | none => s

/-- The text of the address is in the buffer `ipaddr`, with its last NUL. -/
def InIpaddr (rcvm : ReceiversMessage) : Prop := (intText rcvm.ipaddr).length < 11

instance (rcvm : ReceiversMessage) : Decidable (InIpaddr rcvm) :=
  inferInstanceAs (Decidable (_ < _))

def storeCommrIntoDatabase (db : Db) (rcvm : ReceiversMessage) : Db :=
  -- the NUL behind a longer text empties `fd`, and no attempt of the insert succeeds
  if InIpaddr rcvm then db.rInsertConns rcvm.fd rcvm.ipaddr rcvm.status else db

def storeCommr (db : Db) : Option ReceiverComm → Db
  | some (.connection rcvm) => storeCommrIntoDatabase db rcvm
  | _ => db

def getMessageFromReceiver (s : State) : State :=
  match s.commr.getSubblock true 2 with
  | some idx => { s with
      commr := s.commr.toggleBit idx
      processorR := .data
      db := storeCommr s.db (s.commr.partitions idx) }
  | none => { s with processorR := .data }

def getDataFromReceiver (s : State) (id : Uuid) : Option State :=
  match s.datar.getSubblock true 3 with
  | none => some { s with processorR := .comms }
  | some idx => do
      let nmsg ← s.datar.partitions idx
      let db ← (s.db.storeData id nmsg.data1 (nmsg.data.take nmsg.data2)).toOption
      return { s with datar := s.datar.toggleBit idx, processorR := .comms, db := db }

/-- `rcomid` is the row that `pr_getcomms` deletes, if there is one. -/
def sendMsgToReceiver (s : State) (rcomid : Nat) : Option State :=
  match s.commr.getSubblock false 1 with
  | none => some { s with processorR := .waiting }
  | some idx =>
      if s.db.receiversComms = [] then some { s with processorR := .waiting }
      else (s.db.prGetcomms rcomid).map fun (row, db) => { s with
        commr := s.commr.write idx (.capacity (capacityInfo row)), processorR := .waiting, db := db }

def step (s : State) : Action → Option State
  | .sendToProcessor nmsg => some (sendToProcessor s nmsg)
  | .sendMessageToProcessor rcvm => some (sendMessageToProcessor s rcvm)
  | .getMessageFromProcessor => some (getMessageFromProcessor s)
  | .capacity row => some { s with db := s.db.createComms row }
  | .notify =>
      match s.db.noti1receiver with
      | noti + 1 => some { s with
          semLockSigr := s.semLockSigr + 1, db := { s.db with noti1receiver := noti } }
      | 0 => none
  | .waitSigr =>
      match s.processorR, s.semLockSigr with
      | .waiting, sigr + 1 => some { s with semLockSigr := sigr, processorR := .message }
      | _, _ => none
  | .getMessageFromReceiver =>
      match s.processorR with
      | .message => some (getMessageFromReceiver s)
      | _ => none
  | .getDataFromReceiver id =>
      match s.processorR with
      | .data => getDataFromReceiver s id
      | _ => none
  | .sendMsgToReceiver rcomid =>
      match s.processorR with
      | .comms => sendMsgToReceiver s rcomid
      | _ => none

def initial (root : Uuid) (own : SelfInfo) : State :=
  ⟨.empty, .empty, 0, .waiting, Db.installed root own⟩

def Free {α : Type} (block : Block α) (type : Nat) : Prop := ∀ k ∈ Block.region type, block.bit k = false

instance {α : Type} (block : Block α) (type : Nat) : Decidable (Free block type) :=
  inferInstanceAs (Decidable (∀ k ∈ Block.region type, block.bit k = false))

/-- `processor_r` sleeps, nothing will wake it, and the receiver has taken its capacities. -/
structure Asleep (s : State) : Prop where
  processorR : s.processorR = .waiting
  semLockSigr : s.semLockSigr = 0
  delivered : s.db.noti1receiver = 0
  lower : Free s.commr 1

structure Drained (s : State) : Prop where
  data : Free s.datar 3
  messages : Free s.commr 2
  capacities : s.db.receiversComms = []

def HasRoom (s : State) : Action → Prop
  | .sendMsgToReceiver _ => s.db.receiversComms = [] ∨ ∃ k ∈ Block.region 1, s.commr.bit k = false
  | _ => True

instance (s : State) (a : Action) : Decidable (HasRoom s a) :=
  match a with
  | .sendMsgToReceiver _ => inferInstanceAs (Decidable (_ ∨ ∃ k ∈ Block.region 1, _))
  | .sendToProcessor _ => .isTrue trivial
  | .sendMessageToProcessor _ => .isTrue trivial
  | .getMessageFromProcessor => .isTrue trivial
  | .capacity _ => .isTrue trivial
  | .notify => .isTrue trivial
  | .waitSigr => .isTrue trivial
  | .getMessageFromReceiver => .isTrue trivial
  | .getDataFromReceiver _ => .isTrue trivial

def State.wakeups (s : State) : Nat := s.semLockSigr + s.db.noti1receiver

/-- The work of each kind is at most the wake-ups that will still reach it. -/
structure Covered (s : State) : Prop where
  datar : s.datar.Filled
  commr : s.commr.Filled
  messages : (s.commr.held 2).length ≤ s.wakeups + if s.processorR = .message then 1 else 0
  data : (s.datar.held 3).length ≤
    s.wakeups + if s.processorR = .message ∨ s.processorR = .data then 1 else 0
  capacities : s.db.receiversComms.length ≤ s.wakeups + if s.processorR = .waiting then 0 else 1

section Step

variable {s t : State}

theorem storeData_frame {db db' : Db} {id : Uuid} {fd : Int} {data : Bytea}
    (done : db.storeData id fd data = .ok db') :
    db'.receiversComms = db.receiversComms ∧ db'.noti1receiver = db.noti1receiver ∧
      db'.receivingConns = db.receivingConns := by
  obtain ⟨top, -, -, inserted⟩ := insertUnderRoot_ok done
  unfold Db.insertJob at inserted
  split at inserted
  · cases inserted
  · split at inserted
    · cases inserted
    · obtain rfl := Except.ok.inj inserted
      exact ⟨rfl, rfl, rfl⟩

theorem storeCommr_rows (db : Db) (record : Option ReceiverComm) :
    ∃ rows, storeCommr db record = { db with receivingConns := rows } := by
  unfold storeCommr
  split
  · next rcvm =>
      unfold storeCommrIntoDatabase
      split
      · exact Db.rInsertConns_frame db rcvm.fd rcvm.ipaddr rcvm.status
      · exact ⟨db.receivingConns, rfl⟩
  · exact ⟨db.receivingConns, rfl⟩

theorem storeCommr_frame (db : Db) (record : Option ReceiverComm) :
    (storeCommr db record).receiversComms = db.receiversComms ∧
      (storeCommr db record).noti1receiver = db.noti1receiver := by
  obtain ⟨rows, same⟩ := storeCommr_rows db record
  rw [same]
  exact ⟨rfl, rfl⟩

/-- A new row in `receivers_comms` comes with a notification. -/
theorem createComms_told (db : Db) (row : SysInfo) :
    (db.createComms row = db) ∨
      ((db.createComms row).receiversComms.length = db.receiversComms.length + 1 ∧
        (db.createComms row).noti1receiver = db.noti1receiver + 1) := by
  unfold Db.createComms
  split
  · exact .inl rfl
  · split
    · exact .inl rfl
    · exact .inr ⟨List.length_append, rfl⟩

theorem prGetcomms_some {db db' : Db} {rcomid : Nat} {row : ReceiversComm}
    (found : db.prGetcomms rcomid = some (row, db')) :
    row ∈ db.receiversComms ∧ db'.receiversComms.length < db.receiversComms.length ∧
      db'.noti1receiver = db.noti1receiver := by
  obtain ⟨row', chosen, pair⟩ := Option.map_eq_some_iff.mp found
  obtain ⟨rfl, rfl⟩ := Prod.mk.inj pair
  have member := List.mem_of_find?_eq_some chosen
  exact ⟨member, List.length_filter_lt_length_iff_exists.mpr ⟨row', member, by simp⟩, rfl⟩

theorem covered_sendToProcessor (covered : Covered s) (nmsg : NewmsgData) :
    Covered (sendToProcessor s nmsg) := by
  obtain ⟨datar, commr, messages, data, capacities⟩ := covered
  unfold sendToProcessor
  cases found : s.datar.getSubblock false 3 with
  | none => exact ⟨datar, commr, messages, data, capacities⟩
  | some idx =>
      have count := Block.held_length_write nmsg found
      constructor
      · exact Block.filled_write datar (Block.getSubblock_some found).2
      · exact commr
      · simp only [State.wakeups] at messages ⊢
        omega
      · simp only [State.wakeups] at data ⊢
        omega
      · simp only [State.wakeups] at capacities ⊢
        omega

theorem covered_sendMessageToProcessor (covered : Covered s) (rcvm : ReceiversMessage) :
    Covered (sendMessageToProcessor s rcvm) := by
  obtain ⟨datar, commr, messages, data, capacities⟩ := covered
  unfold sendMessageToProcessor
  cases found : s.commr.getSubblock false 2 with
  | none => exact ⟨datar, commr, messages, data, capacities⟩
  | some idx =>
      have count := Block.held_length_write (ReceiverComm.connection rcvm) found
      constructor
      · exact datar
      · exact Block.filled_write commr (Block.getSubblock_some found).2
      · simp only [State.wakeups] at messages ⊢
        omega
      · simp only [State.wakeups] at data ⊢
        omega
      · simp only [State.wakeups] at capacities ⊢
        omega

theorem covered_getMessageFromProcessor (covered : Covered s) :
    Covered (getMessageFromProcessor s) := by
  obtain ⟨datar, commr, messages, data, capacities⟩ := covered
  unfold getMessageFromProcessor
  cases found : s.commr.getSubblock true 1 with
  | none => exact ⟨datar, commr, messages, data, capacities⟩
  | some idx =>
      obtain ⟨member, taken⟩ := Block.getSubblock_some found
      constructor
      · exact datar
      · exact Block.filled_clear commr taken
      · rwa [Block.held_clear_outside taken (Block.lower_not_upper member)]
      · exact data
      · exact capacities

theorem covered_createComms (covered : Covered s) (row : SysInfo) :
    Covered { s with db := s.db.createComms row } := by
  obtain ⟨datar, commr, messages, data, capacities⟩ := covered
  rcases createComms_told s.db row with same | ⟨longer, told⟩
  · rw [same]
    exact ⟨datar, commr, messages, data, capacities⟩
  · simp only [State.wakeups] at messages data capacities
    constructor
    · exact datar
    · exact commr
    · simp only [State.wakeups, told]
      omega
    · simp only [State.wakeups, told]
      omega
    · simp only [State.wakeups, told, longer]
      omega

theorem covered_getMessageFromReceiver (covered : Covered s) (turn : s.processorR = .message) :
    Covered (getMessageFromReceiver s) := by
  obtain ⟨datar, commr, messages, data, capacities⟩ := covered
  rw [turn] at messages data capacities
  unfold getMessageFromReceiver
  cases found : s.commr.getSubblock true 2 with
  | none =>
      have empty := Block.held_of_none found
      constructor
      · exact datar
      · exact commr
      · simp [empty]
      · simpa [State.wakeups] using data
      · simpa [State.wakeups] using capacities
  | some idx =>
      obtain ⟨member, taken⟩ := Block.getSubblock_some found
      have count := Block.held_length_clear commr found
      obtain ⟨rows, noti⟩ := storeCommr_frame s.db (s.commr.partitions idx)
      constructor
      · exact datar
      · exact Block.filled_clear commr taken
      · simp [State.wakeups, noti] at messages ⊢
        omega
      · simpa [State.wakeups, noti] using data
      · simpa [State.wakeups, noti, rows] using capacities

theorem covered_getDataFromReceiver {id : Uuid} (covered : Covered s) (turn : s.processorR = .data)
    (done : getDataFromReceiver s id = some t) : Covered t := by
  obtain ⟨datar, commr, messages, data, capacities⟩ := covered
  rw [turn] at messages data capacities
  unfold getDataFromReceiver at done
  cases found : s.datar.getSubblock true 3 with
  | none =>
      rw [found] at done
      obtain rfl := Option.some.inj done
      have empty := Block.held_of_none found
      constructor
      · exact datar
      · exact commr
      · simpa [State.wakeups] using messages
      · simp [empty]
      · simpa [State.wakeups] using capacities
  | some idx =>
      rw [found] at done
      obtain ⟨nmsg, -, rest⟩ := Option.bind_eq_some_iff.mp done
      obtain ⟨db, stored, last⟩ := Option.bind_eq_some_iff.mp rest
      obtain rfl := Option.some.inj last
      obtain ⟨rows, noti, -⟩ := storeData_frame (toOption_some stored)
      have count := Block.held_length_clear datar found
      constructor
      · exact Block.filled_clear datar (Block.getSubblock_some found).2
      · exact commr
      · simpa [State.wakeups, noti] using messages
      · simp [State.wakeups, noti] at data ⊢
        omega
      · simpa [State.wakeups, noti, rows] using capacities

theorem covered_sendMsgToReceiver {rcomid : Nat} (covered : Covered s)
    (turn : s.processorR = .comms) (room : HasRoom s (.sendMsgToReceiver rcomid))
    (done : sendMsgToReceiver s rcomid = some t) : Covered t := by
  obtain ⟨datar, commr, messages, data, capacities⟩ := covered
  rw [turn] at messages data capacities
  -- without a row there is nothing to cover
  have idle (none : s.db.receiversComms = []) : Covered { s with processorR := .waiting } := by
    constructor
    · exact datar
    · exact commr
    · simpa [State.wakeups] using messages
    · simpa [State.wakeups] using data
    · simp [none]
  unfold sendMsgToReceiver at done
  cases found : s.commr.getSubblock false 1 with
  | none =>
      rw [found] at done
      obtain rfl := Option.some.inj done
      rcases room with none | ⟨k, member, free⟩
      · exact idle none
      · simp [Block.getSubblock_none.mp found k member] at free
  | some idx =>
      rw [found] at done
      dsimp only at done
      split at done
      · next none =>
          obtain rfl := Option.some.inj done
          exact idle none
      · obtain ⟨⟨row, db⟩, read, rfl⟩ := Option.map_eq_some_iff.mp done
        obtain ⟨-, fewer, noti⟩ := prGetcomms_some read
        obtain ⟨member, free⟩ := Block.getSubblock_some found
        constructor
        · exact datar
        · exact Block.filled_write commr free
        · rw [Block.held_write_outside free (Block.lower_not_upper member)]
          simpa [State.wakeups, noti] using messages
        · simpa [State.wakeups, noti] using data
        · simp [State.wakeups, noti] at capacities ⊢
          omega

theorem covered_step {a : Action} (covered : Covered s) (room : HasRoom s a)
    (moved : step s a = some t) : Covered t := by
  cases a with
  | sendToProcessor nmsg => exact Option.some.inj moved ▸ covered_sendToProcessor covered nmsg
  | sendMessageToProcessor rcvm =>
      exact Option.some.inj moved ▸ covered_sendMessageToProcessor covered rcvm
  | getMessageFromProcessor =>
      exact Option.some.inj moved ▸ covered_getMessageFromProcessor covered
  | capacity row => exact Option.some.inj moved ▸ covered_createComms covered row
  | notify =>
      simp only [step] at moved
      split at moved
      · next noti delivered =>
          obtain rfl := Option.some.inj moved
          obtain ⟨datar, commr, messages, data, capacities⟩ := covered
          simp only [State.wakeups, delivered] at messages data capacities
          constructor
          · exact datar
          · exact commr
          · simp only [State.wakeups]
            omega
          · simp only [State.wakeups]
            omega
          · simp only [State.wakeups]
            omega
      · cases moved
  | waitSigr =>
      simp only [step] at moved
      split at moved
      · next sigr waits posted =>
          obtain rfl := Option.some.inj moved
          obtain ⟨datar, commr, messages, data, capacities⟩ := covered
          rw [waits] at messages data capacities
          simp [State.wakeups, posted] at messages data capacities
          constructor
          · exact datar
          · exact commr
          · simp [State.wakeups]
            omega
          · simp [State.wakeups]
            omega
          · simp [State.wakeups]
            omega
      · cases moved
  | getMessageFromReceiver =>
      simp only [step] at moved
      split at moved
      · next turn => exact Option.some.inj moved ▸ covered_getMessageFromReceiver covered turn
      · cases moved
  | getDataFromReceiver id =>
      simp only [step] at moved
      split at moved
      · next turn => exact covered_getDataFromReceiver covered turn moved
      · cases moved
  | sendMsgToReceiver rcomid =>
      simp only [step] at moved
      split at moved
      · next turn => exact covered_sendMsgToReceiver covered turn room moved
      · cases moved

theorem free_of_held {α : Type} {block : Block α} {type : Nat} (filled : block.Filled)
    (none : (block.held type).length = 0) : Free block type := by
  intro k member
  by_contra taken
  have marked : block.bit k = true := by simpa using taken
  obtain ⟨a, holds⟩ := filled k marked
  have inside : a ∈ block.held type := mem_contents.mpr ⟨k, member, marked, holds⟩
  rw [List.eq_nil_of_length_eq_zero none] at inside
  cases inside

/-- In every run in which `send_msg_to_receiver` has room whenever it has a row to send, no
work is left when `processor_r` sleeps and nothing will wake it. -/
theorem drained_when_asleep {root : Uuid} {own : SelfInfo} {actions : List Action}
    (done : run step (initial root own) actions = some t)
    (guarded : Guarded step HasRoom (initial root own) actions) (asleep : Asleep t) :
    Drained t := by
  have start : Covered (initial root own) := by
    constructor
    · exact Block.filled_empty
    · exact Block.filled_empty
    · simp [initial, Block.held_empty]
    · simp [initial, Block.held_empty]
    · simp [initial, Db.installed]
  obtain ⟨datar, commr, messages, data, capacities⟩ :=
    guarded_run_keeps (fun _ _ _ covered room moved => covered_step covered room moved) start guarded
      done
  have none : t.wakeups = 0 := by rw [State.wakeups, asleep.semLockSigr, asleep.delivered]
  simp [none, asleep.processorR] at messages data capacities
  constructor
  · exact free_of_held datar (by simp [data])
  · exact free_of_held commr (by simp [messages])
  · exact capacities

end Step

section Samples

def sampleState : State := initial (Uuid.ofNat 0) ⟨ascii "   M3", 2130706433, 6001, 32768⟩

def m1Row : SysInfo := ⟨ascii "   M1", 16843009, some 6101, 7000, some 1000⟩

def learn : List Action := [.capacity m1Row, .notify]

def turn (n : Nat) : List Action :=
  [.waitSigr, .getMessageFromReceiver, .getDataFromReceiver (Uuid.ofNat n), .sendMsgToReceiver n]

theorem drained_one_capacity : ∃ t,
    run step sampleState (learn ++ turn 1 ++ [.getMessageFromProcessor]) = some t ∧ Drained t := by
  have asleep : (run step sampleState (learn ++ turn 1 ++ [.getMessageFromProcessor])).map
      (fun t => decide (t.processorR = .waiting) && decide (t.wakeups = 0) &&
        decide (Free t.commr 1)) = some true := by decide +kernel
  have guarded : Guarded step HasRoom sampleState (learn ++ turn 1 ++ [.getMessageFromProcessor]) := by
    decide +kernel
  obtain ⟨t, done, test⟩ := Option.map_eq_some_iff.mp asleep
  simp only [Bool.and_eq_true, decide_eq_true_eq, State.wakeups, Nat.add_eq_zero_iff] at test
  exact ⟨t, done, drained_when_asleep done guarded
    ⟨test.1.1, test.1.2.1, test.1.2.2, test.2⟩⟩

def burst : List Action :=
  (List.replicate 41 learn).flatten ++ (List.range' 1 41).flatMap turn ++
    List.replicate 40 .getMessageFromProcessor

set_option maxRecDepth 10000 in
/-- The last capacity stays in the table. -/
theorem burst_strands_capacity :
    ∃ t, run step sampleState burst = some t ∧ Asleep t ∧ t.db.receiversComms.length = 1 ∧
      ¬ Drained t := by
  have asleep : (run step sampleState burst).map (fun t => decide (t.processorR = .waiting) &&
      decide (t.wakeups = 0) && decide (Free t.commr 1) &&
      decide (t.db.receiversComms.length = 1)) = some true := by decide +kernel
  obtain ⟨t, done, test⟩ := Option.map_eq_some_iff.mp asleep
  simp only [Bool.and_eq_true, decide_eq_true_eq, State.wakeups, Nat.add_eq_zero_iff] at test
  refine ⟨t, done, ⟨test.1.1.1, test.1.1.2.1, test.1.1.2.2, test.1.2⟩, test.2, fun drained => ?_⟩
  have one := test.2
  rw [drained.capacities] at one
  cases one

end Samples

end Wakeups

end FileSharing
