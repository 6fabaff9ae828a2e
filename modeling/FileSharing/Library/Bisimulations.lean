import FileSharing.Library.Runs
import Mathlib.Data.Option.Basic

/-! Two systems that take the same actions, one of them with a state in more detail. -/

namespace FileSharing.Library

variable {S T A : Type} (step : S → A → Option S) (step' : T → A → Option T)
  (allowed : S → A → Prop) (related : S → T → Prop)

/-- In related states an allowed action can be taken by both systems or by none, and leads to
related states. -/
def Bisimilar : Prop :=
  ∀ s s' a, related s s' → allowed s a → Option.Rel related (step s a) (step' s' a)

variable {step step' allowed related}

theorem Bisimilar.run (bisimilar : Bisimilar step step' allowed related) {s : S} {s' : T}
    {actions : List A} (start : related s s') (guarded : Guarded step allowed s actions) :
    Option.Rel related (run step s actions) (run step' s' actions) := by
  induction actions generalizing s s' with
  | nil => exact .some start
  | cons a rest ih =>
      have now := bisimilar s s' a start guarded.1
      have later := guarded.2
      simp only [Library.run]
      cases first : step s a with
      | none =>
          rw [first] at now
          cases now' : step' s' a with
          | none => exact .none
          | some t' =>
              rw [now'] at now
              cases now
      | some t =>
          rw [first] at now
          cases now' : step' s' a with
          | none =>
              rw [now'] at now
              cases now
          | some t' =>
              rw [now'] at now
              cases now with
              | some next => exact ih next (later t first)

theorem rel_some {s : S} {x : Option T} (rel : Option.Rel related (some s) x) :
    ∃ t, x = some t ∧ related s t := by
  cases rel with
  | some both => exact ⟨_, rfl, both⟩

theorem rel_none {x : Option T} (rel : Option.Rel related none x) : x = none := by
  cases rel with
  | none => rfl

end FileSharing.Library
