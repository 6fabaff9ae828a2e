import Mathlib.Data.List.Forall2
import Mathlib.Tactic

/-! Sequences of computations that may fail. -/

namespace FileSharing.Library

variable {ε α β σ : Type}

theorem bind_ok {x : Except ε α} {f : α → Except ε β} {b : β} :
    (x >>= f) = .ok b ↔ ∃ a, x = .ok a ∧ f a = .ok b := by
  cases x with
  | error e => simp [bind, Except.bind]
  | ok a => simp [bind, Except.bind]

theorem pure_ok {a b : α} : (pure a : Except ε α) = .ok b ↔ a = b := by
  simp [pure, Except.pure]

theorem toOption_some {x : Except ε α} {a : α} (found : x.toOption = some a) : x = .ok a := by
  cases x with
  | error e => cases found
  | ok b => exact congrArg _ (Option.some.inj found)

theorem isOk_iff {x : Except ε α} : x.isOk = true ↔ ∃ a, x = .ok a := by
  cases x with
  | error e => simp [Except.isOk, Except.toBool]
  | ok a => simp [Except.isOk, Except.toBool]

instance decidableResult {x : Except ε α} {holds : α → Prop} [DecidablePred holds] :
    Decidable (∀ a, x = .ok a → holds a) :=
  match x with
  | .ok a => decidable_of_iff (holds a) (by simp)
  | .error e => .isTrue (by simp)

theorem mapM_ok {f : α → Except ε β} {xs : List α} {ys : List β} :
    xs.mapM f = .ok ys ↔ List.Forall₂ (fun x y => f x = .ok y) xs ys := by
  induction xs generalizing ys with
  | nil => rw [List.mapM_nil, pure_ok, List.forall₂_nil_left_iff, eq_comm]
  | cons x rest ih =>
      simp only [List.mapM_cons, bind_ok, pure_ok, List.forall₂_cons_left_iff]
      constructor
      · rintro ⟨y, head, tail, done, rfl⟩
        exact ⟨y, tail, head, ih.mp done, rfl⟩
      · rintro ⟨y, tail, head, done, rfl⟩
        exact ⟨y, head, tail, ih.mpr done, rfl⟩

theorem mapM_of_map {f : α → Except ε β} {xs : List α} {ys : List β}
    (each : xs.map f = ys.map .ok) : xs.mapM f = .ok ys := by
  rw [mapM_ok]
  have pairs : List.Forall₂ (· = ·) (xs.map f) (ys.map .ok) := by
    rw [List.forall₂_eq_eq_eq]
    exact each
  rwa [List.forall₂_map_left_iff, List.forall₂_map_right_iff] at pairs

theorem mapM_total {f : α → Except ε β} {xs : List α} (total : ∀ x ∈ xs, ∃ y, f x = .ok y) :
    ∃ ys, xs.mapM f = .ok ys := by
  induction xs with
  | nil => exact ⟨[], rfl⟩
  | cons x rest ih =>
      obtain ⟨y, head⟩ := total x List.mem_cons_self
      obtain ⟨ys, tail⟩ := ih fun z member => total z (List.mem_cons_of_mem x member)
      exact ⟨y :: ys, by simp only [List.mapM_cons, bind_ok, pure_ok]; exact ⟨y, head, ys, tail, rfl⟩⟩

theorem forall₂_mem_right {R : α → β → Prop} {xs : List α} {ys : List β}
    (related : List.Forall₂ R xs ys) {y : β} (member : y ∈ ys) : ∃ x ∈ xs, R x y := by
  induction related with
  | nil => simp at member
  | cons head _ ih =>
      rcases List.mem_cons.mp member with rfl | rest
      · exact ⟨_, List.mem_cons_self, head⟩
      · obtain ⟨x, inside, holds⟩ := ih rest
        exact ⟨x, List.mem_cons_of_mem _ inside, holds⟩

theorem forall₂_mem_left {R : α → β → Prop} {xs : List α} {ys : List β}
    (related : List.Forall₂ R xs ys) {x : α} (member : x ∈ xs) : ∃ y ∈ ys, R x y := by
  induction related with
  | nil => simp at member
  | cons head _ ih =>
      rcases List.mem_cons.mp member with rfl | rest
      · exact ⟨_, List.mem_cons_self, head⟩
      · obtain ⟨y, inside, holds⟩ := ih rest
        exact ⟨y, List.mem_cons_of_mem _ inside, holds⟩

def Succeeds (x : Except ε α) : Prop := ∃ a, x = .ok a

instance (x : Except ε α) : Decidable (Succeeds x) := decidable_of_iff (x.isOk = true) isOk_iff

theorem succeeds_pure (a : α) : Succeeds (pure a : Except ε α) := ⟨a, rfl⟩

theorem succeeds_bind {x : Except ε α} {f : α → Except ε β} :
    Succeeds (x >>= f) ↔ Succeeds x ∧ ∀ a, x = .ok a → Succeeds (f a) := by
  constructor
  · rintro ⟨b, done⟩
    obtain ⟨a, first, second⟩ := bind_ok.mp done
    refine ⟨⟨a, first⟩, fun a' same => ⟨b, ?_⟩⟩
    rwa [← Except.ok.inj (first.symm.trans same)]
  · rintro ⟨⟨a, first⟩, rest⟩
    obtain ⟨b, second⟩ := rest a first
    exact ⟨b, bind_ok.mpr ⟨a, first, second⟩⟩

theorem succeeds_return {x : Except ε α} {f : α → β} :
    Succeeds (x >>= fun a => pure (f a)) ↔ Succeeds x := by
  rw [succeeds_bind]
  exact and_iff_left fun a _ => succeeds_pure (f a)

theorem succeeds_mapM {f : α → Except ε β} {xs : List α} :
    Succeeds (xs.mapM f) ↔ ∀ x ∈ xs, Succeeds (f x) := by
  constructor
  · rintro ⟨ys, done⟩ x member
    obtain ⟨y, -, made⟩ := forall₂_mem_left (mapM_ok.mp done) member
    exact ⟨y, made⟩
  · exact mapM_total

theorem forall₂_map_eq {γ : Type} {R : α → β → Prop} {f : α → γ} {g : β → γ} {xs : List α}
    {ys : List β} (related : List.Forall₂ R xs ys)
    (same : ∀ x ∈ xs, ∀ y, R x y → g y = f x) : ys.map g = xs.map f := by
  induction related with
  | nil => rfl
  | cons head _ ih =>
      rw [List.map_cons, List.map_cons, same _ List.mem_cons_self _ head,
        ih fun x member => same x (List.mem_cons_of_mem _ member)]

theorem foldlM_keeps (inv : σ → Prop) {f : σ → α → Except ε σ} {xs : List α} {s t : σ}
    (keeps : ∀ s x t, x ∈ xs → inv s → f s x = .ok t → inv t)
    (start : inv s) (done : xs.foldlM f s = .ok t) : inv t := by
  induction xs generalizing s with
  | nil => rwa [← pure_ok.mp done]
  | cons x rest ih =>
      obtain ⟨u, head, tail⟩ := bind_ok.mp done
      exact ih (fun s y t member => keeps s y t (List.mem_cons_of_mem x member))
        (keeps s x u List.mem_cons_self start head) tail

end FileSharing.Library
