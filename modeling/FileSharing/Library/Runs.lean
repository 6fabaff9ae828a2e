import Mathlib.Data.List.Perm.Basic
import Mathlib.Tactic

/-! Runs of a system whose step is a partial function of the state and an action. -/

namespace FileSharing.Library

variable {S A X : Type} (step : S → A → Option S)

def run : S → List A → Option S
  | s, [] => some s
  | s, a :: rest => (step s a).bind (run · rest)

/-- Every step of the run is taken in a state that allows its action. -/
def Guarded (allowed : S → A → Prop) : S → List A → Prop
  | _, [] => True
  | s, a :: rest => allowed s a ∧ ∀ t, step s a = some t → Guarded allowed t rest

instance (allowed : S → A → Prop) [∀ s a, Decidable (allowed s a)] :
    ∀ (s : S) (actions : List A), Decidable (Guarded step allowed s actions)
  | _, [] => .isTrue trivial
  | s, a :: rest =>
      match h : step s a with
      | none => decidable_of_iff (allowed s a) (by simp [Guarded, h])
      | some t =>
          have : Decidable (Guarded step allowed t rest) := instDecidableGuarded allowed t rest
          decidable_of_iff (allowed s a ∧ Guarded step allowed t rest) (by simp [Guarded, h])

def outputs (out : S → A → List X) : S → List A → List X
  | _, [] => []
  | s, a :: rest => out s a ++ ((step s a).map (outputs out · rest)).getD []

variable {step}

@[simp] theorem run_nil (s : S) : run step s [] = some s := rfl

theorem run_cons {s t : S} {a : A} {rest : List A} :
    run step s (a :: rest) = some t ↔ ∃ u, step s a = some u ∧ run step u rest = some t := by
  simp [run, Option.bind_eq_some_iff]

theorem run_map {B : Type} (f : B → A) (s : S) (more : List B) :
    run step s (more.map f) = run (fun s b => step s (f b)) s more := by
  induction more generalizing s with
  | nil => rfl
  | cons b rest ih =>
      rw [List.map_cons, run, run]
      congr 1
      funext u
      exact ih u

theorem run_append {s t : S} {first second : List A} :
    run step s (first ++ second) = some t ↔
      ∃ u, run step s first = some u ∧ run step u second = some t := by
  induction first generalizing s with
  | nil => simp
  | cons a rest ih =>
      simp only [List.cons_append, run_cons, ih]
      constructor
      · rintro ⟨u, head, v, middle, tail⟩
        exact ⟨v, ⟨u, head, middle⟩, tail⟩
      · rintro ⟨v, ⟨u, head, middle⟩, tail⟩
        exact ⟨u, head, v, middle, tail⟩

theorem outputs_cons {out : S → A → List X} {s u : S} {a : A} {rest : List A}
    (head : step s a = some u) :
    outputs step out s (a :: rest) = out s a ++ outputs step out u rest := by
  simp [outputs, head]

/-- The induction over a guarded run. -/
theorem guarded_run_keeps {inv : S → Prop} {allowed : S → A → Prop}
    (keeps : ∀ s a t, inv s → allowed s a → step s a = some t → inv t)
    {s t : S} {actions : List A} (start : inv s) (guarded : Guarded step allowed s actions)
    (done : run step s actions = some t) : inv t := by
  induction actions generalizing s with
  | nil => rwa [← Option.some.inj done]
  | cons a rest ih =>
      obtain ⟨u, head, tail⟩ := run_cons.mp done
      exact ih (keeps s a u start guarded.1 head) (guarded.2 u head) tail

theorem guarded_append {allowed : S → A → Prop} {s : S} {first second : List A} :
    Guarded step allowed s (first ++ second) ↔ Guarded step allowed s first ∧
      ∀ t, run step s first = some t → Guarded step allowed t second := by
  induction first generalizing s with
  | nil => simp [Guarded]
  | cons a rest ih =>
      simp only [List.cons_append, Guarded, ih, run_cons]
      constructor
      · rintro ⟨now, later⟩
        refine ⟨⟨now, fun u head => (later u head).1⟩, ?_⟩
        rintro t ⟨u, head, tail⟩
        exact (later u head).2 t tail
      · rintro ⟨⟨now, later⟩, behind⟩
        exact ⟨now, fun u head => ⟨later u head, fun t tail => behind t ⟨u, head, tail⟩⟩⟩

theorem guarded_concat {allowed : S → A → Prop} {s : S} {actions : List A} {a : A} :
    Guarded step allowed s (actions ++ [a]) ↔ Guarded step allowed s actions ∧
      ∀ t, run step s actions = some t → allowed t a := by
  rw [guarded_append]
  simp [Guarded]

theorem guarded_first {allowed : S → A → Prop} {s : S} {first actions : List A}
    (part : first <+: actions) (guarded : Guarded step allowed s actions) :
    Guarded step allowed s first := by
  obtain ⟨second, rfl⟩ := part
  exact (guarded_append.mp guarded).1

theorem guarded_mono {first second : S → A → Prop} (weaker : ∀ s a, first s a → second s a)
    {s : S} {actions : List A} (guarded : Guarded step first s actions) :
    Guarded step second s actions := by
  induction actions generalizing s with
  | nil => trivial
  | cons a rest ih => exact ⟨weaker s a guarded.1, fun t moved => ih (guarded.2 t moved)⟩

/-- Two conditions that agree on each step of a guarded run agree on the run. -/
theorem guarded_iff {inv : S → Prop} {allowed first second : S → A → Prop}
    (keeps : ∀ s a t, inv s → allowed s a → step s a = some t → inv t)
    (same : ∀ s a t, inv s → step s a = some t → (first s a ↔ second s a))
    {s t : S} {actions : List A} (start : inv s) (guarded : Guarded step allowed s actions)
    (done : run step s actions = some t) :
    Guarded step first s actions ↔ Guarded step second s actions := by
  induction actions generalizing s with
  | nil => exact Iff.rfl
  | cons a rest ih =>
      obtain ⟨u, head, tail⟩ := run_cons.mp done
      have later := ih (keeps s a u start guarded.1 head) (guarded.2 u head) tail
      have next (allowed : S → A → Prop) : (∀ t, step s a = some t → Guarded step allowed t rest) ↔
          Guarded step allowed u rest := by
        constructor
        · exact fun each => each u head
        · intro one t moved
          rwa [← Option.some.inj (head.symm.trans moved)]
      rw [Guarded, Guarded, next first, next second, later, same s a u start head]

/-- Two conditions that agree under an invariant agree on every run. -/
theorem guarded_same {inv : S → Prop} {first second : S → A → Prop}
    (keeps : ∀ s a t, inv s → step s a = some t → inv t)
    (same : ∀ s a, inv s → (first s a ↔ second s a)) {s : S} (start : inv s) (actions : List A) :
    Guarded step first s actions ↔ Guarded step second s actions := by
  induction actions generalizing s with
  | nil => exact Iff.rfl
  | cons a rest ih =>
      apply and_congr (same s a start)
      apply forall₂_congr
      exact fun t moved => ih (keeps s a t start moved)

theorem guarded_run_traces {inv : S → List X → Prop} {allowed : S → A → Prop} (out : S → A → List X)
    (keeps : ∀ s trace a t, inv s trace → allowed s a → step s a = some t → inv t (trace ++ out s a))
    {s t : S} {trace : List X} {actions : List A} (start : inv s trace)
    (guarded : Guarded step allowed s actions) (done : run step s actions = some t) :
    inv t (trace ++ outputs step out s actions) := by
  induction actions generalizing s trace with
  | nil =>
      rw [← Option.some.inj done]
      simpa [outputs] using start
  | cons a rest ih =>
      obtain ⟨u, head, tail⟩ := run_cons.mp done
      rw [outputs_cons head, ← List.append_assoc]
      exact ih (keeps s trace a u start guarded.1 head) (guarded.2 u head) tail

theorem run_keeps {inv : S → Prop} (keeps : ∀ s a t, inv s → step s a = some t → inv t)
    {s t : S} {actions : List A} (start : inv s) (done : run step s actions = some t) : inv t := by
  induction actions generalizing s with
  | nil => rwa [← Option.some.inj done]
  | cons a rest ih =>
      obtain ⟨u, head, tail⟩ := run_cons.mp done
      exact ih (keeps s a u start head) tail

theorem run_total {inv : S → Prop} (keeps : ∀ s a, inv s → ∃ t, step s a = some t ∧ inv t)
    {s : S} (start : inv s) (actions : List A) : ∃ t, run step s actions = some t ∧ inv t := by
  induction actions generalizing s with
  | nil => exact ⟨s, rfl, start⟩
  | cons a rest ih =>
      obtain ⟨u, head, kept⟩ := keeps s a start
      obtain ⟨t, tail, whole⟩ := ih kept
      exact ⟨t, run_cons.mpr ⟨u, head, tail⟩, whole⟩

/-- A conservation law: if each step moves what it takes in from the outside into the
stock, and what leaves the stock to the outside, then so does a run. -/
theorem run_conserves (inv : S → Prop) (stock : S → List X) (taken given : S → A → List X)
    {s t : S} {actions : List A} (start : inv s) (done : run step s actions = some t)
    (keeps : ∀ s a t, inv s → step s a = some t → inv t)
    (conserves : ∀ s a t, inv s → step s a = some t →
      (given s a ++ stock t).Perm (taken s a ++ stock s)) :
    (outputs step given s actions ++ stock t).Perm (outputs step taken s actions ++ stock s) := by
  induction actions generalizing s with
  | nil =>
      rw [← Option.some.inj done]
      exact List.Perm.refl _
  | cons a rest ih =>
      obtain ⟨u, head, tail⟩ := run_cons.mp done
      rw [outputs_cons head, outputs_cons head, List.append_assoc, List.append_assoc]
      calc
        (given s a ++ (outputs step given u rest ++ stock t)).Perm
            (given s a ++ (outputs step taken u rest ++ stock u)) :=
          (ih (keeps s a u start head) tail).append_left _
        _ |>.Perm (outputs step taken u rest ++ (given s a ++ stock u)) :=
            List.perm_append_comm_assoc _ _ _
        _ |>.Perm (outputs step taken u rest ++ (taken s a ++ stock s)) :=
            (conserves s a u start head).append_left _
        _ |>.Perm (taken s a ++ (outputs step taken u rest ++ stock s)) :=
            List.perm_append_comm_assoc _ _ _

theorem outputs_append (f g : S → A → List X) (s : S) (actions : List A) :
    (outputs step (fun s a => f s a ++ g s a) s actions).Perm
      (outputs step f s actions ++ outputs step g s actions) := by
  induction actions generalizing s with
  | nil => exact List.Perm.refl _
  | cons a rest ih =>
      simp only [outputs]
      cases step s a with
      | none => simp
      | some u =>
          simp only [Option.map_some, Option.getD_some, List.append_assoc]
          apply List.Perm.append_left
          calc
            (g s a ++ outputs step (fun s a => f s a ++ g s a) u rest).Perm
                (g s a ++ (outputs step f u rest ++ outputs step g u rest)) := (ih u).append_left _
            _ |>.Perm (outputs step f u rest ++ (g s a ++ outputs step g u rest)) :=
                List.perm_append_comm_assoc _ _ _

theorem outputs_nil_iff (out : S → A → List X) (allowed : S → A → Prop)
    {s t : S} {actions : List A} (done : run step s actions = some t)
    (each : ∀ s a t, step s a = some t → (out s a = [] ↔ allowed s a)) :
    outputs step out s actions = [] ↔ Guarded step allowed s actions := by
  induction actions generalizing s with
  | nil => exact iff_of_true rfl trivial
  | cons a rest ih =>
      obtain ⟨u, head, tail⟩ := run_cons.mp done
      rw [outputs_cons head, List.append_eq_nil_iff, each s a u head, ih tail]
      constructor
      · rintro ⟨now, later⟩
        refine ⟨now, fun v moved => ?_⟩
        rwa [← Option.some.inj (head.symm.trans moved)]
      · rintro ⟨now, later⟩
        exact ⟨now, later u head⟩

end FileSharing.Library
