import FileSharing.Receiver.Wakeups

/-! What `receiving_conns` says about the descriptors of the receiver: each accept and each
close is a message in the upper half of the comms block, which `processor_r` applies with an
upsert. -/

namespace FileSharing

open Library

namespace Announcing

/-- `opened` has the address of the peer on each open descriptor, and `owed` is the message
that the receiver sends next. -/
structure State where
  side : Wakeups.State
  opened : Int → Option Int
  owed : Option ReceiversMessage

/-- `ipaddr` is the address of the peer, and `nonblocking` tells whether `make_nonblocking`
succeeds. -/
inductive Action where
  | accept (fd ipaddr : Int) (nonblocking : Bool)
  | endConnection (fd : Int)
  | report
  | side (a : Wakeups.Action)

def mayRun (s : State) : Wakeups.Action → Bool
  | .sendMessageToProcessor _ => false
  | .sendToProcessor _ => s.owed.isNone
  | .getMessageFromProcessor => s.owed.isNone
  | _ => true

/-- A descriptor and an address as the system returns them. -/
def Acceptable (fd ipaddr : Int) : Prop :=
  (0 ≤ fd ∧ fd ≤ int4Max) ∧ 0 ≤ ipaddr ∧ ipaddr < 2 ^ 32

instance (fd ipaddr : Int) : Decidable (Acceptable fd ipaddr) :=
  inferInstanceAs (Decidable (_ ∧ _))

/-- `accept_connection` and `end_connection`, up to the message; its address is an `int`. -/
def step (s : State) : Action → Option State
  | .accept fd ipaddr nonblocking =>
      if s.owed.isNone ∧ Acceptable fd ipaddr ∧ (s.opened fd).isNone then some { s with
        opened := Function.update s.opened fd (some ipaddr)
        owed := if nonblocking then some ⟨fd, SenderSide.atoi ipaddr, 2⟩ else none }
      else none
  | .endConnection fd =>
      if s.owed.isNone ∧ (s.opened fd).isSome then some { s with
        opened := Function.update s.opened fd none
        owed := some ⟨fd, 0, 1⟩ }
      else none
  | .report => s.owed.map fun rcvm => { s with
      side := Wakeups.sendMessageToProcessor s.side rcvm
      owed := none }
  | .side a =>
      if mayRun s a then (Wakeups.step s.side a).map fun side => { s with side := side } else none

def initial (root : Uuid) (own : SelfInfo) : State :=
  ⟨Wakeups.initial root own, fun _ => none, none⟩

def sent (s : State) : Action → List ReceiversMessage
  | .report => s.owed.toList
  | _ => []

def connectionOf : ReceiverComm → Option ReceiversMessage
  | .connection rcvm => some rcvm
  | .capacity _ => none

def pending (side : Wakeups.State) : List ReceiversMessage :=
  (side.commr.held 2).filterMap connectionOf

def about (fd : Int) (messages : List ReceiversMessage) : List ReceiversMessage :=
  messages.filter fun rcvm => rcvm.fd = fd

def Addressed (side : Wakeups.State) (fd ipaddr : Int) : Prop :=
  (∀ rc ∈ side.db.receivingConns, rc.rfd = fd → rc.ripaddr = ipaddr) ∧
    ∀ rcvm ∈ about fd (pending side), rcvm.status = 2 → rcvm.ipaddr = ipaddr

/-- The address of a peer is below 2 ^ 31, its message finds a free partition above those about
its descriptor, and a descriptor that is used again has the address of its first peer. -/
def Orderly (s : State) : Action → Prop
  | .accept _ ipaddr nonblocking => nonblocking = true ∧ ipaddr < 2 ^ 31
  | .report => ∀ rcvm ∈ s.owed, ∃ idx ∈ s.side.commr.getSubblock false 2,
      (∀ k ∈ Block.region 2, s.side.commr.bit k = true →
        ∀ other ∈ (s.side.commr.partitions k).bind connectionOf, other.fd = rcvm.fd → k < idx) ∧
      (rcvm.status = 2 → Addressed s.side rcvm.fd rcvm.ipaddr)
  | _ => True

instance decidableAddressed (side : Wakeups.State) (fd ipaddr : Int) :
    Decidable (Addressed side fd ipaddr) :=
  inferInstanceAs (Decidable ((∀ rc ∈ side.db.receivingConns, _) ∧ _))

instance decidableOrderly (s : State) (a : Action) : Decidable (Orderly s a) :=
  match a with
  | .accept _ ipaddr nonblocking =>
      inferInstanceAs (Decidable (nonblocking = true ∧ ipaddr < 2 ^ 31))
  | .report => inferInstanceAs (Decidable (∀ rcvm ∈ s.owed, _))
  | .endConnection _ => .isTrue trivial
  | .side _ => .isTrue trivial

structure Drained (t : State) : Prop where
  owed : t.owed = none
  upper : Wakeups.Free t.side.commr 2

structure Recorded (messages : List ReceiversMessage) (t : State) : Prop where
  status : ∀ fd, ∀ rcvm ∈ (about fd messages).getLast?,
    (∃ rc ∈ t.side.db.receivingConns, rc.rfd = fd) ∧
      ∀ rc ∈ t.side.db.receivingConns, rc.rfd = fd → rc.rcstatus = rcvm.status
  address : ∀ fd, ∀ ipaddr ∈ t.opened fd,
    (∃ rc ∈ t.side.db.receivingConns, rc.rfd = fd) ∧
      ∀ rc ∈ t.side.db.receivingConns, rc.rfd = fd → rc.ripaddr = ipaddr

section About

variable {fd : Int} {rcvm : ReceiversMessage} {left right : List ReceiversMessage}

theorem about_append (fd : Int) (left right : List ReceiversMessage) :
    about fd (left ++ right) = about fd left ++ about fd right := List.filter_append ..

theorem about_self : about rcvm.fd [rcvm] = [rcvm] := by simp [about]

theorem about_other (other : rcvm.fd ≠ fd) : about fd [rcvm] = [] := by simp [about, other]

theorem about_between (apart : ∀ other ∈ right, other.fd ≠ rcvm.fd) :
    about rcvm.fd (left ++ rcvm :: right) = about rcvm.fd (left ++ right) ++ [rcvm] := by
  have none : about rcvm.fd right = [] :=
    List.filter_eq_nil_iff.mpr fun other member => by simpa using apart other member
  rw [about_append, about_append, none, List.append_nil, ← List.singleton_append, about_append, none,
    about_self, List.append_nil]

theorem about_between_other (other : rcvm.fd ≠ fd) :
    about fd (left ++ rcvm :: right) = about fd (left ++ right) := by
  rw [about_append, about_append, ← List.singleton_append, about_append, about_other other,
    List.nil_append]

end About

section Rows

variable {rows : List ReceivingConn} {db : Db} {rcvm : ReceiversMessage}

def upsert (rows : List ReceivingConn) (rcvm : ReceiversMessage) : List ReceivingConn :=
  if rows.any fun rc => rc.rfd = rcvm.fd then
    rows.map fun rc => if rc.rfd = rcvm.fd then { rc with rcstatus := rcvm.status } else rc
  else rows ++ [⟨rcvm.fd, rcvm.ipaddr, rcvm.status⟩]

theorem storeCommr_upsert (db : Db) (short : Wakeups.InIpaddr rcvm) :
    (Wakeups.storeCommr db (some (.connection rcvm))).receivingConns =
      upsert db.receivingConns rcvm := by
  rw [Wakeups.storeCommr, Wakeups.storeCommrIntoDatabase, if_pos short]
  unfold Db.rInsertConns upsert
  split
  · rfl
  · rfl

theorem mem_upsert {rc : ReceivingConn} : rc ∈ upsert rows rcvm ↔
    (∃ old ∈ rows, rc = if old.rfd = rcvm.fd then { old with rcstatus := rcvm.status } else old) ∨
      (∀ old ∈ rows, old.rfd ≠ rcvm.fd) ∧ rc = ⟨rcvm.fd, rcvm.ipaddr, rcvm.status⟩ := by
  unfold upsert
  by_cases present : ∃ old ∈ rows, old.rfd = rcvm.fd
  · have test : (rows.any fun rc => decide (rc.rfd = rcvm.fd)) = true := by simpa using present
    have absent : ¬ ∀ old ∈ rows, old.rfd ≠ rcvm.fd := by simpa using present
    rw [if_pos test, List.mem_map]
    simp only [absent, false_and, or_false, eq_comm]
  · have test : ¬ (rows.any fun rc => decide (rc.rfd = rcvm.fd)) = true := by simpa using present
    have absent : ∀ old ∈ rows, old.rfd ≠ rcvm.fd := by simpa using present
    rw [if_neg test, List.mem_append, List.mem_singleton]
    constructor
    · intro member
      cases member with
      | inl old => exact .inl ⟨rc, old, by rw [if_neg (absent rc old)]⟩
      | inr new => exact .inr ⟨absent, new⟩
    · intro member
      rcases member with ⟨old, inside, same⟩ | ⟨-, new⟩
      · rw [if_neg (absent old inside)] at same
        exact .inl (same ▸ inside)
      · exact .inr new

theorem upsert_other {rc : ReceivingConn} (other : rc.rfd ≠ rcvm.fd) :
    rc ∈ upsert rows rcvm ↔ rc ∈ rows := by
  rw [mem_upsert]
  constructor
  · intro member
    rcases member with ⟨old, inside, same⟩ | ⟨-, new⟩
    · by_cases equal : old.rfd = rcvm.fd
      · rw [if_pos equal] at same
        exact absurd (same ▸ equal) other
      · rw [if_neg equal] at same
        exact same ▸ inside
    · exact absurd (new ▸ rfl) other
  · intro member
    exact .inl ⟨rc, member, by rw [if_neg other]⟩

theorem upsert_exists : ∃ rc ∈ upsert rows rcvm, rc.rfd = rcvm.fd := by
  by_cases present : ∃ old ∈ rows, old.rfd = rcvm.fd
  · obtain ⟨old, inside, same⟩ := present
    exact ⟨_, mem_upsert.mpr (.inl ⟨old, inside, rfl⟩), by rw [if_pos same]; exact same⟩
  · have absent : ∀ old ∈ rows, old.rfd ≠ rcvm.fd := by simpa using present
    exact ⟨_, mem_upsert.mpr (.inr ⟨absent, rfl⟩), rfl⟩

theorem upsert_status {rc : ReceivingConn} (member : rc ∈ upsert rows rcvm)
    (same : rc.rfd = rcvm.fd) : rc.rcstatus = rcvm.status := by
  rcases mem_upsert.mp member with ⟨old, -, changed⟩ | ⟨-, new⟩
  · by_cases equal : old.rfd = rcvm.fd
    · rw [changed, if_pos equal]
    · rw [changed, if_neg equal] at same
      exact absurd same equal
  · rw [new]

theorem upsert_address {rc : ReceivingConn} (member : rc ∈ upsert rows rcvm)
    (same : rc.rfd = rcvm.fd) : (∃ old ∈ rows, old.rfd = rcvm.fd ∧ rc.ripaddr = old.ripaddr) ∨
      (∀ old ∈ rows, old.rfd ≠ rcvm.fd) ∧ rc.ripaddr = rcvm.ipaddr := by
  rcases mem_upsert.mp member with ⟨old, inside, changed⟩ | ⟨absent, new⟩
  · by_cases equal : old.rfd = rcvm.fd
    · rw [if_pos equal] at changed
      exact .inl ⟨old, inside, equal, by rw [changed]⟩
    · rw [changed, if_neg equal] at same
      exact absurd same equal
  · exact .inr ⟨absent, by rw [new]⟩

end Rows

structure Tracks (fd : Int) (history queue : List ReceiversMessage) (rows : List ReceivingConn) :
    Prop where
  latest : ∀ rcvm ∈ history.getLast?, rcvm ∈ queue.getLast? ∨
    queue = [] ∧ (∃ rc ∈ rows, rc.rfd = fd) ∧ ∀ rc ∈ rows, rc.rfd = fd → rc.rcstatus = rcvm.status
  begins : (∀ rc ∈ rows, rc.rfd ≠ fd) → ∀ rcvm ∈ queue.head?, rcvm.status = 2

section Tracks

variable {fd : Int} {history queue : List ReceiversMessage} {rows : List ReceivingConn}
  {rcvm : ReceiversMessage}

theorem Tracks.push (tracks : Tracks fd history queue rows) (first : rcvm.status = 2 ∨ history ≠ []) :
    Tracks fd (history ++ [rcvm]) (queue ++ [rcvm]) rows := by
  constructor
  · intro last member
    rw [List.getLast?_concat] at member ⊢
    exact .inl member
  · intro absent head member
    cases queue with
    | cons waits queue => exact tracks.begins absent head member
    | nil =>
        obtain rfl := Option.some.inj member
        cases first with
        | inl status => exact status
        | inr started =>
            have known := tracks.latest _ (List.getLast?_eq_some_getLast started)
            rcases known with waits | ⟨-, ⟨rc, inside, same⟩, -⟩
            · cases waits
            · exact absurd same (absent rc inside)

theorem Tracks.apply (tracks : Tracks rcvm.fd history (rcvm :: queue) rows) :
    Tracks rcvm.fd history queue (upsert rows rcvm) := by
  constructor
  · intro last member
    cases queue with
    | cons waits queue =>
        rcases tracks.latest last member with later | ⟨nothing, -⟩
        · exact .inl (by simpa using later)
        · cases nothing
    | nil =>
        rcases tracks.latest last member with only | ⟨nothing, -⟩
        · obtain rfl := Option.some.inj only
          exact .inr ⟨rfl, upsert_exists, fun rc inside same => upsert_status inside same⟩
        · cases nothing
  · intro absent
    obtain ⟨rc, inside, same⟩ : ∃ rc ∈ upsert rows rcvm, rc.rfd = rcvm.fd := upsert_exists
    exact absurd same (absent rc inside)

theorem Tracks.other (tracks : Tracks fd history queue rows) (other : rcvm.fd ≠ fd) :
    Tracks fd history queue (upsert rows rcvm) := by
  have rowsAbout (rc : ReceivingConn) (same : rc.rfd = fd) : rc ∈ upsert rows rcvm ↔ rc ∈ rows :=
    upsert_other fun equal => other (equal.symm.trans same)
  constructor
  · intro last member
    rcases tracks.latest last member with waits | ⟨nothing, ⟨rc, inside, same⟩, each⟩
    · exact .inl waits
    · refine .inr ⟨nothing, ⟨rc, (rowsAbout rc same).mpr inside, same⟩, ?_⟩
      intro row present equal
      exact each row ((rowsAbout row equal).mp present) equal
  · intro absent
    apply tracks.begins
    intro rc inside same
    exact absent rc ((rowsAbout rc same).mpr inside) same

end Tracks

section Side

variable {s t : Wakeups.State}

theorem side_step {a : Wakeups.Action} (other : ∀ rcvm, a ≠ .sendMessageToProcessor rcvm)
    (short : ∀ rcvm ∈ pending s, Wakeups.InIpaddr rcvm) (done : Wakeups.step s a = some t) :
    pending t = pending s ∧ t.db.receivingConns = s.db.receivingConns ∨
      ∃ rcvm, pending s = rcvm :: pending t ∧
        t.db.receivingConns = upsert s.db.receivingConns rcvm := by
  have same {commr : Block ReceiverComm} (upper : commr.held 2 = s.commr.held 2)
      {datar : Block NewmsgData} {sigr : Nat} {place : Wakeups.ProcessorR} {db : Db} :
      pending ⟨datar, commr, sigr, place, db⟩ = pending s := by
    rw [pending, pending, upper]
  cases a with
  | sendToProcessor nmsg =>
      obtain rfl := Option.some.inj done
      unfold Wakeups.sendToProcessor
      split
      · exact .inl ⟨same rfl, rfl⟩
      · exact .inl ⟨rfl, rfl⟩
  | sendMessageToProcessor rcvm => exact absurd rfl (other rcvm)
  | getMessageFromProcessor =>
      obtain rfl := Option.some.inj done
      unfold Wakeups.getMessageFromProcessor
      split
      · next idx found =>
          obtain ⟨member, taken⟩ := Block.getSubblock_some found
          have lower := Block.lower_not_upper member
          exact .inl ⟨same (Block.held_clear_outside taken lower), rfl⟩
      · exact .inl ⟨rfl, rfl⟩
  | capacity row =>
      obtain rfl := Option.some.inj done
      refine .inl ⟨same rfl, ?_⟩
      simp only [Db.createComms]
      split
      · rfl
      · split
        · rfl
        · rfl
  | notify =>
      simp only [Wakeups.step] at done
      split at done
      · exact .inl (Option.some.inj done ▸ ⟨same rfl, rfl⟩)
      · cases done
  | waitSigr =>
      simp only [Wakeups.step] at done
      split at done
      · exact .inl (Option.some.inj done ▸ ⟨same rfl, rfl⟩)
      · cases done
  | getMessageFromReceiver =>
      simp only [Wakeups.step] at done
      split at done
      · obtain rfl := Option.some.inj done
        unfold Wakeups.getMessageFromReceiver
        split
        · next idx found =>
            have first := Block.held_first found
            cases holds : s.commr.partitions idx with
            | none =>
                rw [holds] at first
                exact .inl ⟨same first.symm, rfl⟩
            | some record =>
                rw [holds] at first
                have moved := congrArg (List.filterMap connectionOf) first
                cases record with
                | capacity info => exact .inl ⟨moved.symm, rfl⟩
                | connection rcvm =>
                    have waits : rcvm ∈ pending s := by
                      rw [pending, moved]
                      exact List.mem_cons_self
                    exact .inr ⟨rcvm, moved, storeCommr_upsert s.db (short rcvm waits)⟩
        · exact .inl ⟨same rfl, rfl⟩
      · cases done
  | getDataFromReceiver id =>
      simp only [Wakeups.step] at done
      split at done
      · unfold Wakeups.getDataFromReceiver at done
        split at done
        · exact .inl (Option.some.inj done ▸ ⟨same rfl, rfl⟩)
        · obtain ⟨nmsg, -, rest⟩ := Option.bind_eq_some_iff.mp done
          obtain ⟨db, stored, last⟩ := Option.bind_eq_some_iff.mp rest
          have frame := (Wakeups.storeData_frame (toOption_some stored)).2.2
          exact .inl (Option.some.inj last ▸ ⟨same rfl, frame⟩)
      · cases done
  | sendMsgToReceiver rcomid =>
      simp only [Wakeups.step] at done
      split at done
      · unfold Wakeups.sendMsgToReceiver at done
        split at done
        · exact .inl (Option.some.inj done ▸ ⟨same rfl, rfl⟩)
        · next idx found =>
            split at done
            · exact .inl (Option.some.inj done ▸ ⟨same rfl, rfl⟩)
            · obtain ⟨⟨row, db⟩, read, rfl⟩ := Option.map_eq_some_iff.mp done
              obtain ⟨row', -, pair⟩ := Option.map_eq_some_iff.mp read
              obtain ⟨member, free⟩ := Block.getSubblock_some found
              have upper := Block.held_write_outside (a := ReceiverComm.capacity (Addresses.capacityInfo row))
                free (Block.lower_not_upper member)
              exact .inl ⟨same upper, by rw [← (Prod.mk.inj pair).2]⟩
      · cases done

end Side

theorem inIpaddr_small {fd ipaddr status : Int} (low : 0 ≤ ipaddr) (high : ipaddr < 2 ^ 31) :
    Wakeups.InIpaddr ⟨fd, ipaddr, status⟩ := by
  have digits : (natText ipaddr.natAbs).length ≤ 10 := length_natText_le (by decide) (by omega)
  have text : intText ipaddr = natText ipaddr.natAbs := if_neg (by omega)
  change (intText ipaddr).length < 11
  rw [text]
  omega

structure Told (s : State) (messages : List ReceiversMessage) (fd : Int) : Prop where
  tracks : Tracks fd (about fd messages) (about fd (pending s.side)) s.side.db.receivingConns
  opened : (∀ rcvm ∈ s.owed, rcvm.fd ≠ fd) → ∀ ipaddr ∈ s.opened fd,
    about fd messages ≠ [] ∧ Addressed s.side fd ipaddr
  owed : ∀ rcvm ∈ s.owed, rcvm.fd = fd → s.opened fd = some rcvm.ipaddr ∧ rcvm.status = 2 ∨
    s.opened fd = none ∧ about fd messages ≠ []
  short : ∀ rcvm, rcvm ∈ s.owed ∨ rcvm ∈ pending s.side → Wakeups.InIpaddr rcvm

section Step

variable {s t : State} {messages : List ReceiversMessage} {rcvm : ReceiversMessage}

theorem Addressed.apply {side side' : Wakeups.State} {fd ipaddr : Int}
    (addressed : Addressed side fd ipaddr) (waits : pending side = rcvm :: pending side')
    (rows : side'.db.receivingConns = upsert side.db.receivingConns rcvm)
    (begins : rcvm.fd = fd → (∀ rc ∈ side.db.receivingConns, rc.rfd ≠ fd) → rcvm.status = 2) :
    Addressed side' fd ipaddr := by
  have queue : about fd (pending side) = about fd [rcvm] ++ about fd (pending side') := by
    rw [waits, ← about_append, List.singleton_append]
  constructor
  · intro rc member same
    rw [rows] at member
    by_cases other : rcvm.fd = fd
    · subst other
      rcases upsert_address member same with ⟨old, inside, equal, address⟩ | ⟨absent, address⟩
      · exact address.trans (addressed.1 old inside equal)
      · rw [address]
        apply addressed.2 rcvm
        · rw [queue, about_self]
          exact List.mem_cons_self
        · exact begins rfl absent
    · exact addressed.1 rc ((upsert_other fun equal => other (equal.symm.trans same)).mp member) same
  · intro later member
    exact addressed.2 later (queue ▸ List.mem_append_right _ member)

theorem told_initial (root : Uuid) (own : SelfInfo) (fd : Int) : Told (initial root own) [] fd := by
  have nothing : pending (initial root own).side = [] := by
    simp [pending, initial, Wakeups.initial, Block.held_empty]
  constructor
  · rw [nothing]
    constructor
    · simp [about]
    · simp [about]
  · intro _ ipaddr member
    cases member
  · intro rcvm member
    cases member
  · intro rcvm member
    rw [nothing] at member
    simp [initial] at member

theorem pending_report {idx : Nat} (found : s.side.commr.getSubblock false 2 = some idx)
    (above : ∀ k ∈ Block.region 2, s.side.commr.bit k = true →
      ∀ other ∈ (s.side.commr.partitions k).bind connectionOf, other.fd = rcvm.fd → k < idx) :
    ∃ left right, pending s.side = left ++ right ∧
      pending (Wakeups.sendMessageToProcessor s.side rcvm) = left ++ rcvm :: right ∧
      ∀ other ∈ right, other.fd ≠ rcvm.fd := by
  obtain ⟨lower, upper, before, after, slots⟩ := Block.held_insert found (.connection rcvm)
  refine ⟨lower.filterMap connectionOf, upper.filterMap connectionOf, ?_, ?_, ?_⟩
  · rw [pending, before, List.filterMap_append]
  · rw [pending, Wakeups.sendMessageToProcessor, found, after, List.filterMap_append]
    rfl
  · intro other member same
    obtain ⟨record, inside, connection⟩ := List.mem_filterMap.mp member
    obtain ⟨k, region, later, marked, holds⟩ := slots record inside
    cases record with
    | capacity info => cases connection
    | connection rcvm' =>
        obtain rfl := Option.some.inj connection
        have earlier := above k region marked _ (by rw [holds]; rfl) same
        omega

theorem told_report (told : ∀ fd, Told s messages fd) (owed : s.owed = some rcvm)
    (orderly : Orderly s .report) (fd : Int) :
    Told { s with side := Wakeups.sendMessageToProcessor s.side rcvm, owed := none }
      (messages ++ [rcvm]) fd := by
  obtain ⟨idx, found, above, addressed⟩ := orderly rcvm owed
  obtain ⟨left, right, before, after, apart⟩ := pending_report found above
  have rows : (Wakeups.sendMessageToProcessor s.side rcvm).db = s.side.db := by
    rw [Wakeups.sendMessageToProcessor, found]
  obtain ⟨tracks, opened, owes, short⟩ := told fd
  have later (other : ReceiversMessage) (member : other ∈ (none : Option ReceiversMessage) ∨
      other ∈ pending (Wakeups.sendMessageToProcessor s.side rcvm)) : Wakeups.InIpaddr other := by
    rw [after] at member
    apply short
    rw [owed, before]
    simp only [List.mem_append, List.mem_cons, Option.mem_def, Option.some.injEq,
      reduceCtorEq, false_or] at member ⊢
    rcases member with left | rfl | right
    · exact .inr (.inl left)
    · exact .inl rfl
    · exact .inr (.inr right)
  by_cases same : rcvm.fd = fd
  · subst same
    have queue : about rcvm.fd (pending (Wakeups.sendMessageToProcessor s.side rcvm)) =
        about rcvm.fd (pending s.side) ++ [rcvm] := by
      rw [after, about_between apart, before]
    have history : about rcvm.fd (messages ++ [rcvm]) = about rcvm.fd messages ++ [rcvm] := by
      rw [about_append, about_self]
    constructor
    · rw [history, queue, rows]
      apply tracks.push
      rcases owes rcvm owed rfl with ⟨-, status⟩ | ⟨-, started⟩
      · exact .inl status
      · exact .inr started
    · intro _ ipaddr member
      rcases owes rcvm owed rfl with ⟨address, status⟩ | ⟨closed, -⟩
      · obtain rfl := Option.some.inj (address.symm.trans member)
        obtain ⟨first, waiting⟩ := addressed status
        refine ⟨by simp [history], by rwa [rows], ?_⟩
        intro later inside accepts
        rw [queue, List.mem_append, List.mem_singleton] at inside
        cases inside with
        | inl waits => exact waiting later waits accepts
        | inr equal => rw [equal]
      · cases closed.symm.trans member
    · nofun
    · exact later
  · have queue : about fd (pending (Wakeups.sendMessageToProcessor s.side rcvm)) =
        about fd (pending s.side) := by
      rw [after, about_between_other same, before]
    have history : about fd (messages ++ [rcvm]) = about fd messages := by
      rw [about_append, about_other same, List.append_nil]
    constructor
    · rw [history, queue, rows]
      exact tracks
    · intro _ ipaddr member
      have others : ∀ later ∈ s.owed, later.fd ≠ fd := by
        intro later inside
        rwa [← Option.some.inj (owed.symm.trans inside)]
      obtain ⟨started, first, waiting⟩ := opened others ipaddr member
      refine ⟨by rwa [history], by rwa [rows], ?_⟩
      rwa [queue]
    · nofun
    · exact later

theorem told_side {a : Wakeups.Action} {side : Wakeups.State} (told : ∀ fd, Told s messages fd)
    (other : ∀ rcvm, a ≠ .sendMessageToProcessor rcvm) (done : Wakeups.step s.side a = some side)
    (fd : Int) : Told { s with side := side } messages fd := by
  obtain ⟨tracks, opened, owes, short⟩ := told fd
  rcases side_step other (fun rcvm waits => short rcvm (.inr waits)) done with
    ⟨queue, rows⟩ | ⟨rcvm, queue, rows⟩
  · constructor
    · rw [queue, rows]
      exact tracks
    · intro others ipaddr member
      obtain ⟨started, first, waiting⟩ := opened others ipaddr member
      exact ⟨started, by rwa [rows], by rwa [queue]⟩
    · exact owes
    · rwa [queue]
  · have split : about fd (pending s.side) = about fd [rcvm] ++ about fd (pending side) := by
      rw [queue, ← about_append, List.singleton_append]
    rw [split] at tracks
    constructor
    · rw [rows]
      by_cases same : rcvm.fd = fd
      · subst same
        rw [about_self] at tracks
        exact tracks.apply
      · rw [about_other same] at tracks
        exact tracks.other same
    · intro others ipaddr member
      obtain ⟨started, addressed⟩ := opened others ipaddr member
      refine ⟨started, addressed.apply queue rows ?_⟩
      rintro rfl absent
      rw [about_self] at tracks
      exact tracks.begins absent rcvm rfl
    · exact owes
    · intro other member
      apply short
      rw [queue]
      exact member.imp_right (List.mem_cons_of_mem rcvm)

/-- The receiver owes a message about a descriptor that it has opened or closed. -/
theorem Told.owe {fd : Int} {value : Option Int} (told : Told s messages fd) (idle : s.owed = none)
    (fits : Wakeups.InIpaddr rcvm)
    (own : rcvm.fd = fd → value = some rcvm.ipaddr ∧ rcvm.status = 2 ∨
      value = none ∧ about fd messages ≠ []) :
    Told { s with opened := Function.update s.opened rcvm.fd value, owed := some rcvm } messages
      fd := by
  constructor
  · exact told.tracks
  · intro others address member
    have apart : fd ≠ rcvm.fd := (others rcvm rfl).symm
    simp only [Function.update_of_ne apart] at member
    exact told.opened (by simp [idle]) address member
  · intro owed member same
    obtain rfl := Option.some.inj member
    subst same
    simp only [Function.update_self]
    exact own rfl
  · intro message either
    cases either with
    | inl owed =>
        obtain rfl := Option.some.inj owed
        exact fits
    | inr waits => exact told.short message (.inr waits)

theorem told_step {a : Action} (told : ∀ fd, Told s messages fd) (orderly : Orderly s a)
    (done : step s a = some t) (fd : Int) : Told t (messages ++ sent s a) fd := by
  cases a with
  | accept fd' ipaddr nonblocking =>
      obtain ⟨rfl, small⟩ : nonblocking = true ∧ ipaddr < 2 ^ 31 := orderly
      simp only [step] at done
      split at done
      · next able =>
          obtain rfl := Option.some.inj done
          have idle : s.owed = none := Option.isNone_iff_eq_none.mp able.1
          have range : 0 ≤ ipaddr ∧ ipaddr < 2 ^ 32 := able.2.1.2
          have whole : SenderSide.atoi ipaddr = ipaddr := (Addresses.atoi_eq_iff range).mpr small
          simp only [sent, List.append_nil, whole]
          exact (told fd).owe idle (inIpaddr_small range.1 small) fun _ => .inl ⟨rfl, rfl⟩
      · cases done
  | endConnection fd' =>
      simp only [step] at done
      split at done
      · next able =>
          obtain rfl := Option.some.inj done
          have idle : s.owed = none := Option.isNone_iff_eq_none.mp able.1
          obtain ⟨address, known⟩ := Option.isSome_iff_exists.mp able.2
          simp only [sent, List.append_nil]
          refine (told fd).owe idle (inIpaddr_small (le_refl 0) (by decide)) fun same => .inr ⟨rfl, ?_⟩
          obtain rfl : fd' = fd := same
          exact ((told fd').opened (by simp [idle]) address known).1
      · cases done
  | report =>
      obtain ⟨rcvm, owed, rfl⟩ := Option.map_eq_some_iff.mp done
      have message : sent s .report = [rcvm] := by rw [sent, owed]; rfl
      rw [message]
      exact told_report told owed orderly fd
  | side a =>
      simp only [step] at done
      split at done
      · next able =>
          obtain ⟨side, moved, rfl⟩ := Option.map_eq_some_iff.mp done
          simp only [sent, List.append_nil]
          refine told_side told ?_ moved fd
          rintro rcvm rfl
          cases able
      · cases done

end Step

/-- In an orderly run, `receiving_conns` is right whenever the upper half is drained. -/
theorem recorded_of_orderly {root : Uuid} {own : SelfInfo} {actions : List Action} {t : State}
    (done : run step (initial root own) actions = some t)
    (orderly : Guarded step Orderly (initial root own) actions) (drained : Drained t) :
    Recorded (outputs step sent (initial root own) actions) t := by
  have keeps (s : State) (messages : List ReceiversMessage) (a : Action) (t : State)
      (told : ∀ fd, Told s messages fd) (allowed : Orderly s a) (moved : step s a = some t) :
      ∀ fd, Told t (messages ++ sent s a) fd := told_step told allowed moved
  have told := @guarded_run_traces _ _ _ _ (fun s messages => ∀ fd, Told s messages fd) _ sent keeps
    _ _ _ _ (told_initial root own) orderly done
  rw [List.nil_append] at told
  have nothing : pending t.side = [] := by
    have free : t.side.commr.getSubblock true 2 = none :=
      Block.getSubblock_none.mpr drained.upper
    rw [pending, Block.held_of_none free, List.filterMap_nil]
  have recorded (fd : Int) : ∀ rcvm ∈ (about fd (outputs step sent (initial root own) actions)).getLast?,
      (∃ rc ∈ t.side.db.receivingConns, rc.rfd = fd) ∧
        ∀ rc ∈ t.side.db.receivingConns, rc.rfd = fd → rc.rcstatus = rcvm.status := by
    intro rcvm member
    rcases (told fd).tracks.latest rcvm member with waits | ⟨-, rows⟩
    · rw [nothing] at waits
      cases waits
    · exact rows
  constructor
  · exact recorded
  · intro fd ipaddr member
    obtain ⟨started, addressed⟩ := (told fd).opened (by simp [drained.owed]) ipaddr member
    exact ⟨(recorded fd _ (List.getLast?_eq_some_getLast started)).1, addressed.1⟩

section Samples

def sampleState : State := initial (Uuid.ofNat 0) ⟨ascii "   M3", 2130706433, 6001, 32768⟩

def accepts (fd ipaddr : Int) : List Action := [.accept fd ipaddr true, .report]

def closes (fd : Int) : List Action := [.endConnection fd, .report]

def turn : List Action := (Wakeups.turn 0).map .side

def again : List Action :=
  accepts 5 16843009 ++ turn ++ closes 5 ++ turn ++ accepts 5 16843009 ++ turn

theorem recorded_again : ∃ t, run step sampleState again = some t ∧
    Recorded (outputs step sent sampleState again) t := by
  have drained : (run step sampleState again).map (fun t =>
      t.owed.isNone && decide (Wakeups.Free t.side.commr 2)) = some true := by decide +kernel
  have orderly : Guarded step Orderly sampleState again := by decide +kernel
  obtain ⟨t, done, test⟩ := Option.map_eq_some_iff.mp drained
  simp only [Bool.and_eq_true, Option.isNone_iff_eq_none, decide_eq_true_eq] at test
  exact ⟨t, done, recorded_of_orderly done orderly ⟨test.1, test.2⟩⟩

def reused : List Action :=
  accepts 5 16843009 ++ turn ++ closes 5 ++ turn ++ accepts 5 33686018 ++ turn

/-- The accept of 6 waits in the second partition while the first one is emptied, and so its
close overtakes it. -/
def overtaken : List Action :=
  accepts 5 16843009 ++ accepts 6 33686018 ++ turn ++ closes 6 ++ turn ++ turn

/-- A peer at 192.168.1.1, whose address is an `int` of eleven characters. -/
def unrecorded : List Action := accepts 5 3232235777 ++ turn

theorem drained_of_map (actions : List Action) (fd : Int) (opened : Option Int)
    (rows : List ReceivingConn) (known : (run step sampleState actions).map (fun t =>
      (t.owed, decide (Wakeups.Free t.side.commr 2), t.opened fd, t.side.db.receivingConns)) =
        some (none, true, opened, rows)) :
    ∃ t, run step sampleState actions = some t ∧ Drained t ∧ t.opened fd = opened ∧
      t.side.db.receivingConns = rows := by
  obtain ⟨t, done, same⟩ := Option.map_eq_some_iff.mp known
  simp only [Prod.mk.injEq, decide_eq_true_eq] at same
  obtain ⟨owed, upper, opened, rows⟩ := same
  exact ⟨t, done, ⟨owed, upper⟩, opened, rows⟩

/-- With the block never full, a descriptor keeps the address of its first peer, a closed one
is recorded as open, and an open one is not recorded at all. -/
theorem connections_misrecorded :
    (∃ t, run step sampleState reused = some t ∧ Drained t ∧
      t.opened 5 = some 33686018 ∧ t.side.db.receivingConns = [⟨5, 16843009, 2⟩] ∧
      ¬ Recorded (outputs step sent sampleState reused) t) ∧
    (∃ t, run step sampleState overtaken = some t ∧ Drained t ∧
      t.opened 6 = none ∧ t.side.db.receivingConns = [⟨5, 16843009, 2⟩, ⟨6, 0, 2⟩] ∧
      ¬ Recorded (outputs step sent sampleState overtaken) t) ∧
    ∃ t, run step sampleState unrecorded = some t ∧ Drained t ∧
      t.opened 5 = some 3232235777 ∧ t.side.db.receivingConns = [] ∧
      ¬ Recorded (outputs step sent sampleState unrecorded) t := by
  have last : (about 6 (outputs step sent sampleState overtaken)).getLast? = some ⟨6, 0, 1⟩ := by
    decide +kernel
  refine ⟨?_, ?_, ?_⟩
  · obtain ⟨t, done, drained, opened, rows⟩ := drained_of_map reused 5
      (some 33686018) [⟨5, 16843009, 2⟩] (by decide +kernel)
    refine ⟨t, done, drained, opened, rows, fun recorded => ?_⟩
    have address := (recorded.address 5 _ opened).2 ⟨5, 16843009, 2⟩ (by simp [rows]) rfl
    exact absurd address (by decide)
  · obtain ⟨t, done, drained, opened, rows⟩ := drained_of_map overtaken 6
      none [⟨5, 16843009, 2⟩, ⟨6, 0, 2⟩] (by decide +kernel)
    refine ⟨t, done, drained, opened, rows, fun recorded => ?_⟩
    have status := (recorded.status 6 _ last).2 ⟨6, 0, 2⟩ (by simp [rows]) rfl
    exact absurd status (by decide)
  · obtain ⟨t, done, drained, opened, rows⟩ := drained_of_map unrecorded 5
      (some 3232235777) [] (by decide +kernel)
    refine ⟨t, done, drained, opened, rows, fun recorded => ?_⟩
    obtain ⟨rc, member, -⟩ := (recorded.address 5 _ opened).1
    simp [rows] at member

end Samples

end Announcing

end FileSharing
