import FileSharing.Shared.Bitmap

/-! The two blocks between `receiver` and `processor_r`, byte by byte. Each critical section is one
step. -/

namespace FileSharing

open Library

namespace Exchange

open Bitmap

def cpartitionSize : Nat := 50

def dpartitionSize : Nat := messageSize + 46

/-- `capacity_info` in the lower half of the comms block: an `int` and 17 characters, padded. -/
def capacities : Channel := ⟨1, cpartitionSize, 24, by decide⟩

/-- `receivers_message` in the upper half: three times `int`. -/
def statuses : Channel := ⟨2, cpartitionSize, 12, by decide⟩

/-- `newmsg_data` in the whole of the data block. -/
def messages : Channel := ⟨3, dpartitionSize, messageSize + 8, Nat.add_le_add_left (by decide) _⟩

/-- The partition is cleared before the database is asked for the message `comm`. -/
def sendMsgToReceiver (comm : Option (Bytes capacities.record)) (block : Memory) : Memory :=
  let position := getSubblock block false 1
  if 0 ≤ position then
    match comm with
    | none => copyTo block (capacities.blkptr position.toNat) (List.replicate cpartitionSize 0)
    | some cpif => writeMessage capacities cpif position.toNat block
  else block

/-- The second `memcpy` copies from the address of the pointer `cpif`: bytes of the stack. -/
def getMessageFromProcessor (stack : Bytes capacities.record) (block : Memory) :
    Option (List UInt8) × Memory :=
  let position := getSubblock block true 1
  if 0 ≤ position then
    let blkptr := capacities.blkptr position.toNat
    (some (slice block blkptr capacities.record), toggleBit position.toNat (copyTo block blkptr stack))
  else (none, block)

def sendMessageToProcessor (rcvm : Bytes statuses.record) (block : Memory) : Memory :=
  send statuses rcvm 3 block

def getMessageFromReceiver (block : Memory) : Option (List UInt8) × Memory := readMessage statuses block

def sendToProcessor (nmsg : Bytes messages.record) (block : Memory) : Memory :=
  send messages nmsg 3 block

def getDataFromReceiver (block : Memory) : Option (List UInt8) × Memory := readMessage messages block

inductive Party where
  | receiver
  | processorR

def Party.other : Party → Party
  | .receiver => .processorR
  | .processorR => .receiver

def half : Party → Channel
  | .receiver => statuses
  | .processorR => capacities

inductive CommAction where
  | sendMsgToReceiver (comm : Option (Bytes capacities.record))
  | getMessageFromProcessor (stack : Bytes capacities.record)
  | sendMessageToProcessor (rcvm : Bytes statuses.record)
  | getMessageFromReceiver

def commStep (block : Memory) : CommAction → Option Memory
  | .sendMsgToReceiver comm => some (sendMsgToReceiver comm block)
  | .getMessageFromProcessor stack => some (getMessageFromProcessor stack block).2
  | .sendMessageToProcessor rcvm => some (sendMessageToProcessor rcvm block)
  | .getMessageFromReceiver => some (getMessageFromReceiver block).2

def commSent (p : Party) (block : Memory) : CommAction → List (List UInt8)
  | .sendMsgToReceiver comm =>
      match p with
      | .receiver => []
      | .processorR => comm.toList.flatMap fun cpif => written capacities cpif block
  | .sendMessageToProcessor rcvm =>
      match p with
      | .receiver => written statuses rcvm block
      | .processorR => []
  | .getMessageFromProcessor _ => []
  | .getMessageFromReceiver => []

def commReceived (p : Party) (block : Memory) : CommAction → List (List UInt8)
  | .getMessageFromProcessor stack =>
      match p with
      | .receiver => (getMessageFromProcessor stack block).1.toList
      | .processorR => []
  | .getMessageFromReceiver =>
      match p with
      | .receiver => []
      | .processorR => (getMessageFromReceiver block).1.toList
  | .sendMsgToReceiver _ => []
  | .sendMessageToProcessor _ => []

inductive DataAction where
  | sendToProcessor (nmsg : Bytes messages.record)
  | getDataFromReceiver

def dataStep (block : Memory) : DataAction → Option Memory
  | .sendToProcessor nmsg => some (sendToProcessor nmsg block)
  | .getDataFromReceiver => some (getDataFromReceiver block).2

def dataSent (block : Memory) : DataAction → List (List UInt8)
  | .sendToProcessor nmsg => written messages nmsg block
  | .getDataFromReceiver => []

def dataReceived (block : Memory) : DataAction → List (List UInt8)
  | .sendToProcessor _ => []
  | .getDataFromReceiver => (getDataFromReceiver block).1.toList

section Steps

variable {block last : Memory}

theorem lower_apart : ∀ k ∈ Block.region capacities.type, k ∉ Block.region statuses.type :=
  fun _ lower => Block.lower_not_upper lower

theorem upper_apart : ∀ k ∈ Block.region statuses.type, k ∉ Block.region capacities.type :=
  fun _ upper => Block.upper_not_lower upper

theorem cleared_held (p : Party) (found : 0 ≤ getSubblock block false 1) :
    (half p).held (copyTo block (capacities.blkptr (getSubblock block false 1).toNat)
      (List.replicate cpartitionSize 0)) = (half p).held block := by
  have position := (getSubblock_found capacities).mp (position_of_nonneg found)
  obtain ⟨member, free⟩ := Block.getSubblock_some position
  have within : Within capacities (getSubblock block false 1).toNat block
      (copyTo block (capacities.blkptr (getSubblock block false 1).toNat)
        (List.replicate cpartitionSize 0)) :=
    within_copyTo (by rw [List.length_replicate]; exact Nat.le_refl _)
  cases p with
  | receiver =>
      have same : (half .receiver).partition = capacities.partition := rfl
      apply within.held same
      intro k inside _ same
      exact lower_apart _ member (same ▸ inside)
  | processorR =>
      have same : (half .processorR).partition = capacities.partition := rfl
      apply within.held same
      intro k _ marked same
      have free' : (capacities.view block).bit k = false := same.symm ▸ free
      exact Bool.false_ne_true (free'.symm.trans marked)

theorem sendMsgToReceiver_held (comm : Option (Bytes capacities.record)) (block : Memory) :
    (capacities.held (sendMsgToReceiver comm block)).Perm
      (commSent .processorR block (.sendMsgToReceiver comm) ++ capacities.held block) := by
  unfold sendMsgToReceiver
  by_cases found : 0 ≤ getSubblock block false 1
  · cases comm with
    | none =>
        simp only [if_pos found]
        exact .of_eq (cleared_held .processorR found)
    | some cpif =>
        simp only [if_pos found]
        have put : written capacities cpif block = [cpif.1] := if_pos found
        have sent : commSent .processorR block (.sendMsgToReceiver (some cpif)) = [cpif.1] := by
          simp [commSent, put]
        rw [sent]
        exact writeMessage_held capacities cpif (position_of_nonneg found)
  · have none (cpif : Bytes capacities.record) : written capacities cpif block = [] := if_neg found
    simp only [if_neg found]
    cases comm with
    | none => exact List.Perm.refl _
    | some cpif => simp [commSent, none]

theorem sendMsgToReceiver_apart (comm : Option (Bytes capacities.record)) (block : Memory) :
    statuses.held (sendMsgToReceiver comm block) = statuses.held block := by
  unfold sendMsgToReceiver
  by_cases found : 0 ≤ getSubblock block false 1
  · simp only [if_pos found]
    cases comm with
    | none => exact cleared_held .receiver found
    | some cpif =>
        exact writeMessage_apart capacities cpif rfl (position_of_nonneg found) lower_apart
  · simp only [if_neg found]

theorem within_stack (stack : Bytes capacities.record) (block : Memory) (position : Nat) :
    Within capacities position block (copyTo block (capacities.blkptr position) stack) :=
  within_copyTo (stack.2.trans_le capacities.fits)

theorem getMessageFromProcessor_held (stack : Bytes capacities.record) (block : Memory) :
    (capacities.held block).Perm ((getMessageFromProcessor stack block).1.toList ++
      capacities.held (getMessageFromProcessor stack block).2) := by
  rw [getMessageFromProcessor]
  by_cases found : 0 ≤ getSubblock block true 1
  · simp only [if_pos found]
    exact read_held capacities (within_stack stack block _) (position_of_nonneg found)
  · simp only [if_neg found]
    exact List.Perm.refl _

theorem getMessageFromProcessor_apart (stack : Bytes capacities.record) (block : Memory) :
    statuses.held (getMessageFromProcessor stack block).2 = statuses.held block := by
  rw [getMessageFromProcessor]
  by_cases found : 0 ≤ getSubblock block true 1
  · simp only [if_pos found]
    have taken := (getSubblock_found capacities).mp (position_of_nonneg found)
    have member := (Block.getSubblock_some taken).1
    exact held_apart (within_stack stack block _) rfl (region_low member) (lower_apart _ member)
  · simp only [if_neg found]

theorem commStep_moves (p : Party) {action : CommAction} (moved : commStep block action = some last) :
    (commReceived p.other block action ++ (half p).held last).Perm
      (commSent p block action ++ (half p).held block) := by
  cases action with
  | sendMsgToReceiver comm =>
      obtain rfl := Option.some.inj moved
      cases p with
      | receiver => exact .of_eq (sendMsgToReceiver_apart comm block)
      | processorR => exact sendMsgToReceiver_held comm block
  | getMessageFromProcessor stack =>
      obtain rfl := Option.some.inj moved
      cases p with
      | receiver => exact .of_eq (getMessageFromProcessor_apart stack block)
      | processorR => exact (getMessageFromProcessor_held stack block).symm
  | sendMessageToProcessor rcvm =>
      obtain rfl := Option.some.inj moved
      cases p with
      | receiver => exact send_held statuses rcvm 2 block
      | processorR => exact .of_eq (send_apart statuses rcvm 2 block rfl upper_apart)
  | getMessageFromReceiver =>
      obtain rfl := Option.some.inj moved
      cases p with
      | receiver => exact (readMessage_held statuses block).symm
      | processorR => exact .of_eq (readMessage_apart statuses block rfl upper_apart)

theorem dataStep_moves {action : DataAction} (moved : dataStep block action = some last) :
    (dataReceived block action ++ messages.held last).Perm
      (dataSent block action ++ messages.held block) := by
  cases action with
  | sendToProcessor nmsg =>
      obtain rfl := Option.some.inj moved
      exact send_held messages nmsg 2 block
  | getDataFromReceiver =>
      obtain rfl := Option.some.inj moved
      exact (readMessage_held messages block).symm

end Steps

/-- The messages that one party writes in its half of the comms block are those that the other
reads from it, each once, and those that are still in it; none is left when the reader finds no
occupied partition. -/
theorem comm_run (p : Party) (block : Memory) (actions : List CommAction) :
    ∃ last, run commStep block actions = some last ∧
      (outputs commStep (commReceived p.other) block actions ++ (half p).held last).Perm
        (outputs commStep (commSent p) block actions ++ (half p).held block) ∧
      (getSubblock last true (half p).type = -1 ↔ (half p).held last = []) := by
  have total (block : Memory) (action : CommAction) (_ : True) :
      ∃ last, commStep block action = some last ∧ True := by
    cases action with
    | sendMsgToReceiver comm => exact ⟨_, rfl, trivial⟩
    | getMessageFromProcessor stack => exact ⟨_, rfl, trivial⟩
    | sendMessageToProcessor rcvm => exact ⟨_, rfl, trivial⟩
    | getMessageFromReceiver => exact ⟨_, rfl, trivial⟩
  obtain ⟨last, done, -⟩ := run_total total (s := block) trivial actions
  refine ⟨last, done, ?_, getSubblock_held (half p) last⟩
  exact run_conserves (fun _ => True) (half p).held (commSent p) (commReceived p.other) trivial done
    (fun _ _ _ _ _ => trivial) fun _ _ _ _ moved => commStep_moves p moved

theorem data_run (block : Memory) (actions : List DataAction) :
    ∃ last, run dataStep block actions = some last ∧
      (outputs dataStep dataReceived block actions ++ messages.held last).Perm
        (outputs dataStep dataSent block actions ++ messages.held block) ∧
      (getSubblock last true 3 = -1 ↔ messages.held last = []) := by
  have total (block : Memory) (action : DataAction) (_ : True) :
      ∃ last, dataStep block action = some last ∧ True := by
    cases action with
    | sendToProcessor nmsg => exact ⟨_, rfl, trivial⟩
    | getDataFromReceiver => exact ⟨_, rfl, trivial⟩
  obtain ⟨last, done, -⟩ := run_total total (s := block) trivial actions
  refine ⟨last, done, ?_, getSubblock_held messages last⟩
  exact run_conserves (fun _ => True) messages.held dataSent dataReceived trivial done
    (fun _ _ _ _ _ => trivial) fun _ _ _ _ moved => dataStep_moves moved

/-- What the readers take: the first message of their part, if it has any. -/
structure Takes (block : Memory) : Prop where
  capacities : ∀ stack, (getMessageFromProcessor stack block).1 = (capacities.held block).head?
  statuses : (getMessageFromReceiver block).1 = (statuses.held block).head?
  messages : (getDataFromReceiver block).1 = (messages.held block).head?

theorem takes (block : Memory) : Takes block := by
  constructor
  · intro stack
    have first := first_held capacities block
    rw [show capacities.type = 1 from rfl] at first
    rw [← first, getMessageFromProcessor]
    split
    · rfl
    · rfl
  · exact readMessage_first statuses block
  · exact readMessage_first messages block

/-- The partitions of the blocks: the scan and the toggle agree on the bits, a reader takes a
message whenever there is one, and so each message is read once, by the other party. -/
theorem read_once :
    (∀ block state type, Scanned block state type) ∧
      (∀ block, Takes block) ∧
      (∀ p block actions, ∃ last, run commStep block actions = some last ∧
        (outputs commStep (commReceived p.other) block actions ++ (half p).held last).Perm
          (outputs commStep (commSent p) block actions ++ (half p).held block) ∧
        (getSubblock last true (half p).type = -1 ↔ (half p).held last = [])) ∧
      ∀ block actions, ∃ last, run dataStep block actions = some last ∧
        (outputs dataStep dataReceived block actions ++ messages.held last).Perm
          (outputs dataStep dataSent block actions ++ messages.held block) ∧
        (getSubblock last true 3 = -1 ↔ messages.held last = []) :=
  ⟨scanned, takes, comm_run, data_run⟩

end Exchange

end FileSharing
