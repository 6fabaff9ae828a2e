import FileSharing.Receiver.HashTable
import FileSharing.Receiver.Wakeups

/-! The whole of `receiver` beside `processor_r` and `notif`: its connections, its hash table,
and the message that it is reading. -/

namespace FileSharing

open Library

namespace Reception

open Addresses (Inbound htonl receiverKey)

structure Connection where
  names : Inbound
  stream : Bytea

/-- Where `run_receiver` is; `data` is the part of `nmsg.data` that is filled. -/
inductive Receiver where
  | waiting
  | reading (fd : Int) (size : Nat) (data : Bytea)

structure State where
  side : Wakeups.State
  htable : Hash.HashTable
  conns : Int → Option Connection
  receiver : Receiver

/-- `arrive` is the peer, `again` a `read` that returns no byte, and `others` a step of the
other programs. The receiver takes its events in any order. -/
inductive Action where
  | arrive (fd : Int) (data : Bytea)
  | accept (fd : Int) (names : Inbound)
  | getMessageFromProcessor
  | event (fd : Int)
  | read (count : Nat)
  | again
  | endConnection (fd : Int)
  | others (a : Wakeups.Action)

def isOther : Wakeups.Action → Bool
  | .sendToProcessor _ | .sendMessageToProcessor _ | .getMessageFromProcessor => false
  | .capacity _ | .notify | .waitSigr | .getMessageFromReceiver | .getDataFromReceiver _
    | .sendMsgToReceiver _ => true

def accept (s : State) (fd : Int) (names : Inbound) : State :=
  { s with
    side := Wakeups.sendMessageToProcessor s.side ⟨fd, (htonl names.peername).toInt, 2⟩
    conns := Function.update s.conns fd (some ⟨names, []⟩) }

def endConnection (s : State) (fd : Int) : State :=
  { s with
    side := Wakeups.sendMessageToProcessor s.side ⟨fd, 0, 1⟩
    conns := Function.update s.conns fd none }

/-- The entry that the receiver makes of a capacity may fail. -/
def getMessageFromProcessor (s : State) : Option State :=
  match s.side.commr.getSubblock true 1 with
  | none => some s
  | some idx =>
      match s.side.commr.partitions idx with
      | some (.capacity cpif) => (Hash.hput s.htable cpif.ipaddress cpif.capacity).map fun put =>
          { s with side := Wakeups.getMessageFromProcessor s.side, htable := put.2 }
      | _ => none

/-- A descriptor is readable: the hash table has the size of its messages, or the connection
ends. -/
def event (s : State) (fd : Int) (conn : Connection) : Option State :=
  (Hash.hget s.htable (receiverKey conn.names)).map fun size =>
    if 0 ≤ size then { s with receiver := .reading fd size.toNat [] } else endConnection s fd

/-- One `read` that returns `count` bytes. A message that is whole is sent. -/
def read (s : State) (fd : Int) (size : Nat) (data : Bytea) (count : Nat) : Option State :=
  (s.conns fd).bind fun conn =>
    if 1 ≤ count ∧ count ≤ size - data.length ∧ count ≤ conn.stream.length then
      let total := data ++ conn.stream.take count
      let rest := conn.stream.drop count
      let taken := { s with conns := Function.update s.conns fd (some ⟨conn.names, rest⟩) }
      if total.length = size then some { taken with
        side := Wakeups.sendToProcessor s.side ⟨fd, total.length, total⟩
        receiver := .reading fd size [] }
      else some { taken with receiver := .reading fd size total }
    else none

def step (s : State) : Action → Option State
  | .arrive fd data => (s.conns fd).map fun conn => { s with
      conns := Function.update s.conns fd (some ⟨conn.names, conn.stream ++ data⟩) }
  | .accept fd names =>
      match s.receiver, s.conns fd with
      | .waiting, none => if 0 ≤ fd ∧ fd ≤ int4Max then some (accept s fd names) else none
      | _, _ => none
  | .getMessageFromProcessor =>
      match s.receiver with
      | .waiting => getMessageFromProcessor s
      | _ => none
  | .event fd =>
      match s.receiver, s.conns fd with
      | .waiting, some conn => event s fd conn
      | _, _ => none
  | .read count =>
      match s.receiver with
      | .reading fd size data => read s fd size data count
      | _ => none
  | .again =>
      match s.receiver with
      | .reading _ _ _ => some { s with receiver := .waiting }
      | _ => none
  | .endConnection fd =>
      match s.receiver, s.conns fd with
      | .waiting, some _ => some (endConnection s fd)
      | _, _ => none
  | .others a =>
      if isOther a then (Wakeups.step s.side a).map fun side => { s with side := side } else none

def initial (root : Uuid) (own : SelfInfo) (size : Nat) : State :=
  ⟨Wakeups.initial root own, Hash.hcreateTable size, fun _ => none, .waiting⟩

section Side

variable {s t : State}

theorem side_step {a : Action} (moved : step s a = some t) :
    t.side = s.side ∨ ∃ a', Wakeups.step s.side a' = some t.side := by
  cases a with
  | arrive fd data =>
      obtain ⟨conn, -, rfl⟩ := Option.map_eq_some_iff.mp moved
      exact .inl rfl
  | accept fd names =>
      simp only [step] at moved
      split at moved
      · split at moved
        · obtain rfl := Option.some.inj moved
          exact .inr ⟨.sendMessageToProcessor _, rfl⟩
        · cases moved
      · cases moved
  | getMessageFromProcessor =>
      simp only [step] at moved
      split at moved
      · unfold getMessageFromProcessor at moved
        split at moved
        · exact .inl (congrArg State.side (Option.some.inj moved).symm)
        · split at moved
          · obtain ⟨put, -, rfl⟩ := Option.map_eq_some_iff.mp moved
            exact .inr ⟨.getMessageFromProcessor, rfl⟩
          · cases moved
      · cases moved
  | event fd =>
      simp only [step] at moved
      split at moved
      · obtain ⟨size, -, rfl⟩ := Option.map_eq_some_iff.mp moved
        split
        · exact .inl rfl
        · exact .inr ⟨.sendMessageToProcessor _, rfl⟩
      · cases moved
  | read count =>
      simp only [step] at moved
      split at moved
      · obtain ⟨conn, -, taken⟩ := Option.bind_eq_some_iff.mp moved
        split at taken
        · dsimp only at taken
          split at taken
          · obtain rfl := Option.some.inj taken
            exact .inr ⟨.sendToProcessor _, rfl⟩
          · obtain rfl := Option.some.inj taken
            exact .inl rfl
        · cases taken
      · cases moved
  | again =>
      simp only [step] at moved
      split at moved
      · obtain rfl := Option.some.inj moved
        exact .inl rfl
      · cases moved
  | endConnection fd =>
      simp only [step] at moved
      split at moved
      · obtain rfl := Option.some.inj moved
        exact .inr ⟨.sendMessageToProcessor _, rfl⟩
      · cases moved
  | others a =>
      simp only [step] at moved
      split at moved
      · obtain ⟨side, done, rfl⟩ := Option.map_eq_some_iff.mp moved
        exact .inr ⟨a, done⟩
      · cases moved

theorem side_run {actions : List Action} (done : run step s actions = some t) :
    ∃ sides, run Wakeups.step s.side sides = some t.side := by
  induction actions generalizing s with
  | nil =>
      obtain rfl := Option.some.inj done
      exact ⟨[], rfl⟩
  | cons a rest ih =>
      obtain ⟨u, head, tail⟩ := run_cons.mp done
      obtain ⟨sides, later⟩ := ih tail
      cases side_step head with
      | inl same => exact ⟨sides, same ▸ later⟩
      | inr moved =>
          obtain ⟨a', first⟩ := moved
          exact ⟨a' :: sides, run_cons.mpr ⟨u.side, first, later⟩⟩

end Side

end Reception

end FileSharing
