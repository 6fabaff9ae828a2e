import FileSharing.Library.Transfers
import FileSharing.Database.Statements

/-! The stream between `initial_sender` and `initial_receiver`. -/

namespace FileSharing

open Library

namespace InitialExchange

/-- `ISMESSAGE_SIZE` and `IRMESSAGE_SIZE`. -/
def messageSize : Nat := 147

/-- Both loops go on while the total is below the size and the last result is positive; a
list of results that runs out goes on with a failure. -/
def exchangeLoop (results : List Int) : Option (Int × List Int) :=
  transfer (fun result => result ≤ 0) messageSize 0 (results ++ [-1])

/-- What `send` and `read` can return when they are asked for 147 bytes. -/
def Possible (result : Int) : Prop := result = -1 ∨ 0 ≤ result ∧ result ≤ messageSize

instance (result : Int) : Decidable (Possible result) :=
  inferInstanceAs (Decidable (result = -1 ∨ 0 ≤ result ∧ result ≤ messageSize))

/-- The state that `initial_sender` gives the job: `update_status` with the total, or with -1
when the total is not the size. -/
def settledState (total : Int) : JState :=
  if (if total ≠ messageSize then -1 else total) > 0 then .C else .D

/-- `strlen(data)` bytes of the buffer, which was cleared. -/
def storedData (received : Bytea) : Bytea := received.takeWhile (· ≠ 0)

/-- The rows that `initial_receiver` stores for what it received, when the first calls of
`store_data_in_database` fail: it makes three attempts. -/
def storedRows (failures : Nat) (total : Int) (received : Bytea) : List Bytea :=
  if total ≠ messageSize then [] else if failures < 3 then [storedData received] else []

/-- What the two programs do with one message: the memory of `initial_sender` holds it at the
address 0, the results are those of its `send` calls and of the `read` calls of the peer. -/
structure Outcome where
  wire : Bytea
  state : JState
  received : Bytea
  rows : List Bytea

def outcome (memory : Int → UInt8) (sends reads : List Int) (failures : Nat) : Option Outcome := do
  let (sent, out) ← exchangeLoop sends
  let (total, taken) ← exchangeLoop reads
  let wire := out.map memory
  return ⟨wire, settledState sent, wire.take taken.length,
    storedRows failures total (wire.take taken.length)⟩

def message (memory : Int → UInt8) : Bytea := (addresses 0 messageSize).map memory

def moved (results : List Int) : Nat := ((exchangeLoop results).map fun o => o.2.length).getD 0

def Readable (sends reads : List Int) : Prop := moved reads ≤ moved sends

instance (sends reads : List Int) : Decidable (Readable sends reads) :=
  inferInstanceAs (Decidable (moved reads ≤ moved sends))

structure Exchanged (memory : Int → UInt8) (o : Outcome) : Prop where
  sent : o.wire.length ≤ messageSize
  read : o.received.length ≤ messageSize
  stored : ∀ row ∈ o.rows, row = message memory
  complete : o.state = .C ↔ message memory <+: o.wire
  failed : o.state = .D ↔ ¬ message memory <+: o.wire

def Within : Int → List Int → Prop
  | _, [] => True
  | done, result :: rest =>
      result ≤ 0 ∨ done + result = messageSize ∨
        done + result < messageSize ∧ Within (done + result) rest

def Whole : Int → List Int → Prop
  | _, [] => False
  | done, result :: rest =>
      0 < result ∧ (done + result = messageSize ∨
        done + result < messageSize ∧ Whole (done + result) rest)

section Loop

variable {done : Int} {results : List Int}

structure Ends (done : Int) (results : List Int) (last : Int) (count : Nat) : Prop where
  runs : transfer (fun result => result ≤ 0) messageSize done (results ++ [-1]) =
    some (last, addresses done count)
  within : Within done results ↔ done + count ≤ messageSize
  whole : Whole done results ↔ done + count = messageSize
  total : last = messageSize ↔ done + count = messageSize

theorem loop_ends (start : 0 ≤ done) (below : done < messageSize)
    (possible : ∀ r ∈ results, Possible r) : ∃ last count, Ends done results last count := by
  induction results generalizing done with
  | nil =>
      refine ⟨done + -1, 0, transfer_last (.inr (by decide)), ?_, ?_, ?_⟩
      · exact iff_of_true trivial (by omega)
      · exact iff_of_false id (by omega)
      · omega
  | cons result rest ih =>
      obtain ⟨first, later⟩ := List.forall_mem_cons.mp possible
      by_cases stops : result ≤ 0
      · have nothing : result.toNat = 0 := by omega
        refine ⟨done + result, 0, ?_, ?_, ?_, by omega⟩
        · rw [List.cons_append, transfer_last (.inr (by simpa using stops)), nothing]
        · exact iff_of_true (.inl stops) (by omega)
        · exact iff_of_false (fun whole => absurd whole.1 (by omega)) (by omega)
      · by_cases more : done + result < messageSize
        · obtain ⟨last, count, ends⟩ := ih (by omega) more later
          have next : done + (result.toNat : Int) = done + result := by omega
          have sum : done + ((result.toNat + count : Nat) : Int) = done + result + count := by omega
          refine ⟨last, result.toNat + count, ?_, ?_, ?_, ?_⟩
          · rw [List.cons_append, transfer_more more (by simpa using stops), ends.runs,
              addresses_add, next]
            rfl
          · rw [Within, ends.within, sum]
            omega
          · rw [Whole, ends.whole, sum]
            omega
          · rw [ends.total, sum]
        · have moved : done + (result.toNat : Int) = done + result := by omega
          refine ⟨done + result, result.toNat, ?_, ?_, ?_, by omega⟩
          · rw [List.cons_append, transfer_last (.inl (by omega))]
          · rw [Within, moved]
            omega
          · rw [Whole, moved]
            omega

end Loop

theorem takeWhile_eq_iff (bytes : Bytea) : storedData bytes = bytes ↔ (0 : UInt8) ∉ bytes := by
  rw [storedData, List.takeWhile_eq_self_iff]
  constructor
  · intro each member
    simpa using each 0 member
  · intro absent b member
    have other : b ≠ 0 := fun zero => absent (zero ▸ member)
    simpa using other

/-- What the exchange does, and when it is what it should be. -/
theorem exchanged_iff (memory : Int → UInt8) {sends reads : List Int} (failures : Nat)
    (sent : ∀ r ∈ sends, Possible r) (read : ∀ r ∈ reads, Possible r)
    (readable : Readable sends reads) :
    ∃ o, outcome memory sends reads failures = some o ∧
      (Exchanged memory o ↔
        Within 0 sends ∧ ((0 : UInt8) ∉ message memory ∨ ¬ Whole 0 reads ∨ 3 ≤ failures)) := by
  obtain ⟨last, count, out⟩ := loop_ends le_rfl (by decide) sent
  obtain ⟨total, taken, back⟩ := loop_ends le_rfl (by decide) read
  have available : taken ≤ count := by
    simpa [Readable, moved, exchangeLoop, out.runs, back.runs] using readable
  let wire := (addresses 0 count).map memory
  have size : wire.length = count := by simp [wire]
  have received : (wire.take (addresses 0 taken).length).length = taken := by
    rw [length_addresses, List.length_take, size, Nat.min_eq_left available]
  refine ⟨⟨wire, settledState last, wire.take (addresses 0 taken).length,
    storedRows failures total (wire.take (addresses 0 taken).length)⟩, ?_, ?_⟩
  · simp [outcome, exchangeLoop, out.runs, back.runs, wire]
  -- all of the message is on the wire exactly if that many bytes are
  have all : message memory <+: wire ↔ messageSize ≤ count := by
    constructor
    · intro inside
      have short := inside.length_le
      rwa [size, message, List.length_map, length_addresses] at short
    · exact fun enough => (addresses_begin 0 enough).map memory
  have state : settledState last = .C ↔ last = messageSize := by
    unfold settledState
    by_cases same : last = messageSize
    · simp [same, messageSize]
    · simp [same]
  have settled : settledState last = .D ↔ ¬ settledState last = .C := by
    unfold settledState
    split <;> simp
  have ends := out.total
  have within := out.within
  have whole := back.whole
  have sum := back.total
  rw [zero_add] at ends within whole sum
  constructor
  · intro exchanged
    have bound : count ≤ messageSize := size ▸ exchanged.sent
    refine ⟨within.mpr (by omega), ?_⟩
    by_contra bad
    push Not at bad
    obtain ⟨zero, complete, success⟩ := bad
    have full : taken = messageSize := by exact_mod_cast whole.mp complete
    have same : wire.take (addresses 0 taken).length = message memory := by
      rw [length_addresses, full, List.take_of_length_le (by omega)]
      simp only [wire, message, show count = messageSize by omega]
    have rows : storedRows failures total (wire.take (addresses 0 taken).length) =
        [storedData (message memory)] := by
      rw [storedRows, if_neg (not_not.mpr (sum.mpr (whole.mp complete))), if_pos success, same]
    have stored := exchanged.stored (storedData (message memory)) (rows ▸ List.mem_singleton_self _)
    exact (takeWhile_eq_iff _).mp stored zero
  · rintro ⟨inside, safe⟩
    have bound : count ≤ messageSize := by exact_mod_cast within.mp inside
    refine ⟨size.trans_le bound, received.trans_le (available.trans bound), fun row member => ?_,
      ?_, ?_⟩
    · simp only [storedRows] at member
      split at member
      · cases member
      · next complete =>
          split at member
          · next success =>
              have read := sum.mp (not_not.mp complete)
              have full : taken = messageSize := by exact_mod_cast read
              have same : wire.take (addresses 0 taken).length = message memory := by
                rw [length_addresses, full, List.take_of_length_le (by omega)]
                simp only [wire, message, show count = messageSize by omega]
              rw [List.mem_singleton.mp member, same, takeWhile_eq_iff]
              exact safe.resolve_right fun other =>
                other.elim (fun part => part (whole.mpr read)) (by omega)
          · cases member
    · rw [state, ends, all]
      omega
    · rw [settled, state, ends, all]
      omega

theorem exchanged_in_parts :
    ∃ o, outcome (fun _ => 65) [100, 47] [60, 87] 1 = some o ∧ Exchanged (fun _ => 65) o := by
  obtain ⟨o, ended, exchanged⟩ : ∃ o, outcome (fun _ => 65) [100, 47] [60, 87] 1 = some o ∧
      (Exchanged (fun _ => 65) o ↔ _) :=
    exchanged_iff (fun _ => 65) 1 (by decide) (by decide) (by decide +kernel)
  have within : Within 0 [100, 47] := .inr (.inr ⟨by decide, .inr (.inl (by decide))⟩)
  have plain : (0 : UInt8) ∉ message (fun _ => 65) := by decide +kernel
  exact ⟨o, ended, exchanged.mpr ⟨within, .inl plain⟩⟩

/-- After 100 bytes, the second call may put 147 more on the wire; the job goes to D. -/
theorem partial_send_exceeds :
    ∃ o, outcome (fun _ => 65) [100, 147] [] 0 = some o ∧ ¬ Exchanged (fun _ => 65) o := by
  refine ⟨_, rfl, fun exchanged => absurd exchanged.sent (by decide +kernel)⟩

end InitialExchange

end FileSharing
