import FileSharing.Library.Transfers
import FileSharing.Sender.System

/-! The loop of `run_sender` around `send`. -/

namespace FileSharing

open Library

namespace Sending

/-- `send(sndmsg.fd, sndmsg.data+total_data_sent, sndmsg.size, 0)` until `data_sent` is 0 or
the total reaches the size: each call asks for the whole size. The total is an `int`, which
failures alone take out of its range only after 2^31 calls. -/
def sendLoop (size : Nat) (results : List Int) : Option (Int × List Int) :=
  transfer (fun dataSent => dataSent = 0) size 0 results

def status (size : Nat) (totalDataSent : Int) : Int := if totalDataSent < size then 0 else 1

/-- What `send` can return when it is asked for `size` bytes. -/
def Possible (size : Nat) (dataSent : Int) : Prop := dataSent = -1 ∨ 0 ≤ dataSent ∧ dataSent ≤ size

instance (size : Nat) (dataSent : Int) : Decidable (Possible size dataSent) :=
  inferInstanceAs (Decidable (dataSent = -1 ∨ 0 ≤ dataSent ∧ dataSent ≤ size))

/-- The loop stops when `send` returns these results and then fails; what it puts on the wire
is a prefix of the message at the address 0, and the status tells whether it is all of it. -/
def Delivers (size : Nat) (results : List Int) (memory : Int → UInt8) : Prop :=
  ∃ failures total wire,
    sendLoop size (results ++ List.replicate failures (-1)) = some (total, wire) ∧
    wire.map memory <+: (addresses 0 size).map memory ∧
    (status size total = 1 ↔ wire.length = size)

def Gives : List Int → Prop
  | [] => False
  | result :: rest => result = 0 ∨ result = -1 ∧ Gives rest

/-- From `sent` bytes on: each result moves a part, until one moves all that is left; or
nothing is moved any more before a result of 0. -/
def Clean (size : Nat) : Int → List Int → Prop
  | _, [] => False
  | sent, result :: rest =>
      if result ≤ 0 then Gives (result :: rest)
      else sent + result = size ∨ sent + result < size ∧ Clean size (sent + result) rest

instance decidableGives : (results : List Int) → Decidable (Gives results)
  | [] => .isFalse id
  | result :: rest =>
      have := decidableGives rest
      inferInstanceAs (Decidable (result = 0 ∨ result = -1 ∧ Gives rest))

instance decidableClean (size : Nat) : (sent : Int) → (results : List Int) →
    Decidable (Clean size sent results)
  | _, [] => .isFalse id
  | sent, result :: rest =>
      have := decidableClean size (sent + result) rest
      inferInstanceAs (Decidable (if result ≤ 0 then Gives (result :: rest)
        else sent + result = size ∨ sent + result < size ∧ Clean size (sent + result) rest))

def Finishes (size : Nat) (total sent : Int) (results : List Int) : Prop :=
  ∃ failures last wire,
    transfer (fun dataSent => dataSent = 0) size total
      (results ++ List.replicate failures (-1)) = some (last, wire) ∧
    wire <+: addresses sent (size - sent).toNat ∧ (size ≤ last ↔ wire.length = size - sent)

section Loop

variable {size : Nat} {total sent result : Int} {results : List Int}

theorem failures_go_on (failures : Nat) (below : total < size) :
    transfer (fun dataSent => dataSent = 0) size total (List.replicate failures (-1)) = none := by
  induction failures generalizing total with
  | zero => rfl
  | succ failures ih =>
      rw [List.replicate_succ, transfer_more (by omega) (by decide), ih (by omega)]
      rfl

theorem not_finishes_nil (below : total < size) : ¬ Finishes size total sent [] := by
  rintro ⟨failures, last, wire, done, -, -⟩
  rw [List.nil_append, failures_go_on failures below] at done
  cases done

theorem finishes_last (done : (size : Int) ≤ total + result ∨ result = 0) :
    Finishes size total sent (result :: results) ↔
      addresses total result.toNat <+: addresses sent (size - sent).toNat ∧
        (size ≤ total + result ↔ (result.toNat : Int) = size - sent) := by
  have ends (failures : Nat) : transfer (fun dataSent => dataSent = 0) size total
      (result :: (results ++ List.replicate failures (-1))) =
        some (total + result, addresses total result.toNat) :=
    transfer_last (done.imp_right fun zero => by simp [zero])
  constructor
  · rintro ⟨failures, last, wire, stops, inside, all⟩
    rw [List.cons_append, ends] at stops
    obtain ⟨rfl, rfl⟩ := Prod.mk.inj (Option.some.inj stops)
    rw [length_addresses] at all
    exact ⟨inside, all⟩
  · rintro ⟨inside, all⟩
    refine ⟨0, _, _, ends 0, inside, ?_⟩
    rw [length_addresses]
    exact all

theorem finishes_more (below : total + result < size) (goes : result ≠ 0) :
    Finishes size total sent (result :: results) ↔
      ∃ failures last wire,
        transfer (fun dataSent => dataSent = 0) size (total + result)
          (results ++ List.replicate failures (-1)) = some (last, wire) ∧
        addresses total result.toNat ++ wire <+: addresses sent (size - sent).toNat ∧
        (size ≤ last ↔ (result.toNat + wire.length : Int) = size - sent) := by
  have step (failures : Nat) := @transfer_more (fun dataSent => dataSent = 0) size total result
    (results ++ List.replicate failures (-1)) below (by simpa using goes)
  constructor
  · rintro ⟨failures, last, wire, done, inside, all⟩
    rw [List.cons_append, step] at done
    obtain ⟨⟨last', later⟩, found, same⟩ := Option.map_eq_some_iff.mp done
    obtain ⟨rfl, rfl⟩ := Prod.mk.inj same
    rw [List.length_append, length_addresses, Nat.cast_add] at all
    exact ⟨failures, last', later, found, inside, all⟩
  · rintro ⟨failures, last, wire, found, inside, all⟩
    refine ⟨failures, last, addresses total result.toNat ++ wire, ?_, inside, ?_⟩
    · rw [List.cons_append, step, found]
      rfl
    · rw [List.length_append, length_addresses, Nat.cast_add]
      exact all

theorem prefix_head {start sent : Int} {count room : Nat} {rest : List Int} (some : 0 < count)
    (inside : addresses start count ++ rest <+: addresses sent room) : start = sent := by
  obtain ⟨count, rfl⟩ := Nat.exists_eq_succ_of_ne_zero some.ne'
  rw [Nat.succ_eq_add_one, addresses_succ, List.cons_append] at inside
  cases room with
  | zero => simp at inside
  | succ room =>
      rw [addresses_succ] at inside
      exact (List.cons_prefix_cons.mp inside).1

theorem finishes_behind (behind : total < sent) (below : sent < size)
    (possible : ∀ r ∈ results, Possible size r) :
    Finishes size total sent results ↔ Gives results := by
  induction results generalizing total with
  | nil => exact iff_of_false (not_finishes_nil (by omega)) id
  | cons result rest ih =>
      obtain ⟨first, later⟩ := List.forall_mem_cons.mp possible
      rw [Gives]
      rcases first with rfl | ⟨low, high⟩
      · rw [finishes_more (by omega) (by decide)]
        simpa [Finishes] using ih (by omega) later
      · rcases low.eq_or_lt with rfl | positive
        · rw [finishes_last (.inr rfl)]
          refine iff_of_true ⟨List.nil_prefix, ?_⟩ (.inl rfl)
          simp only [Int.toNat_zero, Nat.cast_zero]
          omega
        · refine iff_of_false ?_ (by omega)
          have some : 0 < result.toNat := by omega
          by_cases more : total + result < size
          · rw [finishes_more more (by omega)]
            rintro ⟨failures, last, wire, -, inside, -⟩
            exact behind.ne (prefix_head some inside)
          · rw [finishes_last (.inl (by omega))]
            rintro ⟨inside, -⟩
            rw [← List.append_nil (addresses total result.toNat)] at inside
            exact behind.ne (prefix_head some inside)

theorem finishes_part (positive : 0 < result) (more : sent + result < size) :
    Finishes size sent sent (result :: results) ↔
      Finishes size (sent + result) (sent + result) results := by
  have room : (size - sent).toNat = result.toNat + (size - (sent + result)).toNat := by omega
  have next : sent + (result.toNat : Int) = sent + result := by omega
  have left (wire : List Int) : ((result.toNat + wire.length : Int) = size - sent) ↔
      (wire.length : Int) = size - (sent + result) := by omega
  rw [finishes_more more (by omega), room, addresses_add, next]
  simp only [List.prefix_append_right_inj, left]
  rfl

theorem finishes_iff (below : sent < size) (possible : ∀ r ∈ results, Possible size r) :
    Finishes size sent sent results ↔ Clean size sent results := by
  induction results generalizing sent with
  | nil => exact iff_of_false (not_finishes_nil below) id
  | cons result rest ih =>
      obtain ⟨first, later⟩ := List.forall_mem_cons.mp possible
      rw [Clean]
      rcases first with rfl | ⟨low, high⟩
      · rw [if_pos (by decide), finishes_more (by omega) (by decide), Gives]
        simpa [Finishes] using finishes_behind (by omega : sent + -1 < sent) below later
      · rcases low.eq_or_lt with rfl | positive
        · rw [if_pos le_rfl, finishes_last (.inr rfl)]
          refine iff_of_true ⟨List.nil_prefix, ?_⟩ (.inl rfl)
          simp only [Int.toNat_zero, Nat.cast_zero]
          omega
        · rw [if_neg (by omega)]
          by_cases more : sent + result < size
          · rw [finishes_part positive more, ih more later]
            constructor
            · exact fun clean => .inr ⟨more, clean⟩
            · exact fun clean => (clean.resolve_left more.ne).2
          · rw [finishes_last (.inl (by omega))]
            constructor
            · rintro ⟨-, all⟩
              exact .inl (by omega)
            · intro clean
              have whole : sent + result = size := clean.resolve_right fun part => more part.1
              have room : (size - sent).toNat = result.toNat := by omega
              rw [room]
              exact ⟨List.prefix_refl _, by omega⟩

end Loop

/-- The loop delivers every message of the size exactly if the results are clean. -/
theorem delivers_iff_clean {size : Nat} {results : List Int} (positive : 1 ≤ size)
    (possible : ∀ r ∈ results, Possible size r) :
    (∀ memory : Int → UInt8, Delivers size results memory) ↔ Clean size 0 results := by
  have reports (last : Int) (wire : List Int) : (status size last = 1 ↔ wire.length = size) ↔
      ((size : Int) ≤ last ↔ (wire.length : Int) = size - 0) := by
    unfold status
    split <;> simp <;> omega
  rw [← finishes_iff (by omega) possible]
  constructor
  · intro delivers
    obtain ⟨failures, last, wire, done, -, all⟩ := delivers fun _ => 0
    refine ⟨failures, last, wire, done, ?_, (reports last wire).mp all⟩
    have maps (memory : Int → UInt8) :
        wire.map memory <+: (addresses 0 size).map memory := by
      obtain ⟨failures', last', wire', done', inside, -⟩ := delivers memory
      -- the number of failures that are tried after the end does not matter
      have first := transfer_append (List.replicate failures' (-1)) done
      have second := transfer_append (List.replicate failures (-1)) done'
      rw [List.append_assoc, List.replicate_append_replicate] at first second
      rw [Nat.add_comm, first] at second
      obtain ⟨-, rfl⟩ := Prod.mk.inj (Option.some.inj second)
      exact inside
    simpa using prefix_of_maps (by decide : (0 : UInt8) ≠ 1) maps
  · rintro ⟨failures, last, wire, done, inside, all⟩ memory
    have whole : wire <+: addresses 0 size := by simpa using inside
    exact ⟨failures, last, wire, done, whole.map memory, (reports last wire).mpr all⟩

theorem two_parts_delivered :
    Clean 3 0 [2, 1] ∧ ∀ memory : Int → UInt8, Delivers 3 [2, 1] memory := by
  have clean : Clean 3 0 [2, 1] := by decide
  exact ⟨clean, (delivers_iff_clean (by decide) (by decide)).mpr clean⟩

/-- After a part of one byte, the second call may put two more on the wire; and failures
never end the loop. -/
theorem partial_send_overruns :
    ¬ Delivers 2 [1, 2] (fun _ => 0) ∧ ¬ Delivers 2 [-1] (fun _ => 0) := by
  constructor
  · rintro ⟨failures, last, wire, done, inside, -⟩
    have known : sendLoop 2 [1, 2] = some (3, [0, 1, 2]) := by decide
    have same := (transfer_append (List.replicate failures (-1)) known).symm.trans done
    obtain ⟨-, rfl⟩ := Prod.mk.inj (Option.some.inj same)
    exact absurd inside.length_le (by decide)
  · rintro ⟨failures, last, wire, done, -, -⟩
    have none := failures_go_on (failures + 1) (by decide : (0 : Int) < (2 : Nat))
    rw [List.replicate_succ] at none
    cases none.symm.trans done

section System

open SenderSide

variable {s : SenderSide.State} {sndmsg : SendMessage} {total last : Int} {results wire : List Int}

theorem sender_sends (possible : ∀ r ∈ results, Possible sndmsg.size r)
    (done : transfer (fun dataSent => dataSent = 0) sndmsg.size total results = some (last, wire)) :
    ∃ used, used <+: results ∧
      run step { s with sender := .sending sndmsg total } (used.map Action.send) =
        some { s with sender := .settling ⟨status sndmsg.size last, sndmsg.uuid⟩ } := by
  induction results generalizing total wire with
  | nil => cases done
  | cons result rest ih =>
      obtain ⟨first, later⟩ := List.forall_mem_cons.mp possible
      have range : -1 ≤ result ∧ result ≤ sndmsg.size := by
        rcases first with rfl | ⟨low, high⟩
        · exact ⟨le_rfl, by omega⟩
        · exact ⟨by omega, high⟩
      have turn : step { s with sender := .sending sndmsg total } (.send result) =
          some (sendTurn { s with sender := .sending sndmsg total } sndmsg total result) := by
        simp only [step, if_pos range]
      by_cases more : total + result < sndmsg.size ∧ result ≠ 0
      · rw [transfer_more more.1 (by simpa using more.2)] at done
        obtain ⟨⟨last', wire'⟩, found, same⟩ := Option.map_eq_some_iff.mp done
        obtain ⟨rfl, -⟩ := Prod.mk.inj same
        obtain ⟨used, inside, tail⟩ := ih later found
        refine ⟨result :: used, List.cons_prefix_cons.mpr ⟨rfl, inside⟩, ?_⟩
        rw [List.map_cons, run_cons]
        refine ⟨_, turn, ?_⟩
        rw [sendTurn, if_pos more]
        exact tail
      · have ends : (sndmsg.size : Int) ≤ total + result ∨ decide (result = 0) = true := by
          by_cases zero : result = 0
          · exact .inr (by simpa using zero)
          · exact .inl (not_lt.mp fun below => more ⟨below, zero⟩)
        rw [transfer_last ends] at done
        obtain ⟨rfl, -⟩ := Prod.mk.inj (Option.some.inj done)
        refine ⟨[result], List.cons_prefix_cons.mpr ⟨rfl, List.nil_prefix⟩, ?_⟩
        rw [List.map_cons, run_cons]
        refine ⟨_, turn, ?_⟩
        rw [sendTurn, if_neg more]
        rfl

end System

end Sending

end FileSharing
