import Mathlib.Data.List.Infix
import Mathlib.Tactic

/-! A buffer that is moved by calls which may each move a part of what they are asked for,
nothing, or fail with -1. -/

namespace FileSharing.Library

def addresses (start : Int) (count : Nat) : List Int := (List.range count).map fun i : Nat => start + (i : Int)

/-- The loop `do … while (total < size && !ends(result))`, where `total` adds up the results,
failures included, and each call moves bytes from the address `total` on. It has no outcome
when the results run out before it ends. -/
def transfer (ends : Int → Bool) (size : Nat) : Int → List Int → Option (Int × List Int)
  | _, [] => none
  | total, result :: rest =>
      let moved := addresses total result.toNat
      if total + result < size ∧ ends result = false then
        (transfer ends size (total + result) rest).map fun (last, later) => (last, moved ++ later)
      else some (total + result, moved)

section Addresses

variable {start : Int} {count : Nat}

@[simp] theorem addresses_zero (start : Int) : addresses start 0 = [] := rfl

@[simp] theorem length_addresses (start : Int) (count : Nat) :
    (addresses start count).length = count := by
  simp [addresses]

theorem addresses_add (start : Int) (first second : Nat) :
    addresses start (first + second) = addresses start first ++ addresses (start + first) second := by
  rw [addresses, List.range_add, List.map_append, List.map_map, addresses, addresses]
  congr 1
  apply List.map_congr_left
  intro i _
  simp only [Function.comp, Nat.cast_add, add_assoc]

theorem addresses_succ (start : Int) (count : Nat) :
    addresses start (count + 1) = start :: addresses (start + 1) count := by
  rw [Nat.add_comm, addresses_add]
  simp [addresses]

theorem addresses_begin (start : Int) {first second : Nat} (bound : first ≤ second) :
    addresses start first <+: addresses start second := by
  obtain ⟨rest, rfl⟩ := Nat.exists_eq_add_of_le bound
  rw [addresses_add]
  exact List.prefix_append _ _

end Addresses

section Transfer

variable {ends : Int → Bool} {size : Nat} {total : Int} {result : Int} {results : List Int}

theorem transfer_more (below : total + result < size) (goes : ends result = false) :
    transfer ends size total (result :: results) =
      (transfer ends size (total + result) results).map fun (last, later) =>
        (last, addresses total result.toNat ++ later) := by
  rw [transfer, if_pos ⟨below, goes⟩]

theorem transfer_last (done : (size : Int) ≤ total + result ∨ ends result = true) :
    transfer ends size total (result :: results) =
      some (total + result, addresses total result.toNat) := by
  have stops : ¬ (total + result < size ∧ ends result = false) := by
    rintro ⟨below, goes⟩
    rcases done with reached | ended
    · omega
    · rw [ended] at goes
      cases goes
  rw [transfer, if_neg stops]

theorem transfer_append {outcome : Int × List Int} (more : List Int)
    (done : transfer ends size total results = some outcome) :
    transfer ends size total (results ++ more) = some outcome := by
  induction results generalizing total outcome with
  | nil => cases done
  | cons result rest ih =>
      rw [transfer] at done
      rw [List.cons_append, transfer]
      split at done
      · next goes =>
          obtain ⟨⟨last, later⟩, found, same⟩ := Option.map_eq_some_iff.mp done
          rw [if_pos goes, ih found]
          exact congrArg some same
      · next stops =>
          rw [if_neg stops]
          exact done

end Transfer

theorem prefix_of_maps {α β : Type} [DecidableEq α] {zero one : β} (apart : zero ≠ one)
    {first second : List α} (maps : ∀ f : α → β, first.map f <+: second.map f) :
    first <+: second := by
  induction first generalizing second with
  | nil => exact List.nil_prefix
  | cons a rest ih =>
      cases second with
      | nil => exact absurd (maps fun _ => zero) (by simp)
      | cons b more =>
          have heads (f : α → β) : f a = f b ∧ rest.map f <+: more.map f :=
            List.cons_prefix_cons.mp (maps f)
          have same : a = b := by
            by_contra other
            have marked := (heads fun c => if c = a then one else zero).1
            simp only [if_true, if_neg (Ne.symm other)] at marked
            exact apart marked.symm
          rw [same]
          exact List.cons_prefix_cons.mpr ⟨rfl, ih fun f => (heads f).2⟩

end FileSharing.Library
