import FileSharing.Library.Runs

/-! Systems in which every step lowers a measure: their runs end, and something is known of the
states in which they end. -/

namespace FileSharing.Library

variable {S A : Type} (step : S → A → Option S) (allowed : S → A → Prop)

def Final (s : S) : Prop := ∀ a, allowed s a → step s a = none

/-- Every allowed step keeps the invariant and lowers the measure. -/
def Falls (inv : S → Prop) (measure : S → Nat) : Prop :=
  ∀ s a t, inv s → allowed s a → step s a = some t → inv t ∧ measure t < measure s

variable {step allowed} {inv : S → Prop} {measure : S → Nat} {s t : S} {actions : List A}

theorem Falls.keeps (falls : Falls step allowed inv measure) (start : inv s)
    (guarded : Guarded step allowed s actions) (done : run step s actions = some t) : inv t :=
  guarded_run_keeps (fun _ _ _ kept now moved => (falls _ _ _ kept now moved).1) start guarded done

theorem Falls.bounded (falls : Falls step allowed inv measure) (start : inv s)
    (guarded : Guarded step allowed s actions) (done : run step s actions = some t) :
    actions.length + measure t ≤ measure s := by
  induction actions generalizing s with
  | nil =>
      rw [← Option.some.inj done]
      simp
  | cons a rest ih =>
      obtain ⟨u, head, tail⟩ := run_cons.mp done
      obtain ⟨kept, lower⟩ := falls s a u start guarded.1 head
      have rest_bounded := ih kept (guarded.2 u head) tail
      rw [List.length_cons]
      omega

theorem Falls.ends (falls : Falls step allowed inv measure) (start : inv s) :
    ∃ actions t, run step s actions = some t ∧ Guarded step allowed s actions ∧
      Final step allowed t := by
  induction size : measure s using Nat.strong_induction_on generalizing s with
  | h n ih =>
      by_cases final : Final step allowed s
      · exact ⟨[], s, rfl, trivial, final⟩
      · simp only [Final, not_forall] at final
        obtain ⟨a, now, moves⟩ := final
        obtain ⟨u, head⟩ := Option.ne_none_iff_exists'.mp moves
        obtain ⟨kept, lower⟩ := falls s a u start now head
        obtain ⟨actions, t, tail, guarded, last⟩ := ih (measure u) (size ▸ lower) kept rfl
        refine ⟨a :: actions, t, run_cons.mpr ⟨u, head, tail⟩, ⟨now, fun v moved => ?_⟩, last⟩
        rwa [← Option.some.inj (head.symm.trans moved)]

section Sums

variable {α : Type} {f g : α → Nat} {l : List α}

theorem sum_falls (each : ∀ b ∈ l, f b ≤ g b) {a : α} (member : a ∈ l) :
    (l.map f).sum + g a ≤ (l.map g).sum + f a := by
  induction l with
  | nil => cases member
  | cons b rest ih =>
      have first := each b List.mem_cons_self
      have others : (rest.map f).sum ≤ (rest.map g).sum :=
        List.sum_le_sum fun c inside => each c (List.mem_cons_of_mem b inside)
      simp only [List.map_cons, List.sum_cons]
      cases List.mem_cons.mp member with
      | inl same =>
          subst same
          omega
      | inr later =>
          have tail := ih (fun c inside => each c (List.mem_cons_of_mem b inside)) later
          omega

theorem sum_filter_le (keep : α → Bool) : ((l.filter keep).map f).sum ≤ (l.map f).sum := by
  induction l with
  | nil => exact Nat.le_refl 0
  | cons b rest ih =>
      rw [List.filter_cons]
      split
      · simp only [List.map_cons, List.sum_cons]
        omega
      · simp only [List.map_cons, List.sum_cons]
        omega

theorem countP_map_lt {test : α → Bool} {change : α → α}
    (falls : ∀ b ∈ l, test (change b) = true → test b = true) {a : α} (member : a ∈ l)
    (before : test a = true) (after : test (change a) = false) :
    (l.map change).countP test < l.countP test := by
  obtain ⟨first, last, rfl⟩ := List.append_of_mem member
  have part (rows : List α) (inside : ∀ b ∈ rows, b ∈ first ++ a :: last) :
      (rows.map change).countP test ≤ rows.countP test := by
    rw [List.countP_map]
    exact List.countP_mono_left fun b listed => falls b (inside b listed)
  have left := part first fun b listed => List.mem_append_left _ listed
  have right := part last fun b listed => List.mem_append_right _ (List.mem_cons_of_mem a listed)
  simp only [List.map_append, List.map_cons, List.countP_append, List.countP_cons, before, after,
    Bool.false_eq_true, if_true, if_false]
  omega

end Sums

end FileSharing.Library
