import Mathlib.Data.Multiset.Filter
import Mathlib.Data.Multiset.MapFold
import Mathlib.Tactic

/-! Tables in which the rows of one kind are answered by rows of another, one for one. -/

namespace FileSharing.Library

variable {α : Type} {R : α → α → Prop} {asks answers : α → Bool} {rows rows' : List α}

/-- The rows that ask and the rows that answer make pairs of `R`. -/
def PairedOff (R : α → α → Prop) (asks answers : α → Bool) (rows : List α) : Prop :=
  Multiset.Rel R (rows.filter asks : Multiset α) (rows.filter answers : Multiset α)

theorem filter_map_of_same {p : α → Bool} {change : α → α}
    (same : ∀ x ∈ rows, p (change x) = p x) :
    (rows.map change).filter p = (rows.filter p).map change := by
  rw [List.filter_map]
  congr 1
  exact List.filter_congr same

theorem PairedOff.map {change : α → α} (paired : PairedOff R asks answers rows)
    (asking : ∀ x ∈ rows, asks (change x) = asks x)
    (answering : ∀ x ∈ rows, answers (change x) = answers x)
    (keeps : ∀ x ∈ rows, ∀ y ∈ rows, asks x = true → answers y = true → R x y →
      R (change x) (change y)) :
    PairedOff R asks answers (rows.map change) := by
  unfold PairedOff
  rw [filter_map_of_same asking, filter_map_of_same answering, ← Multiset.map_coe,
    ← Multiset.map_coe, Multiset.rel_map]
  refine Multiset.Rel.mono paired fun x inside y within related => ?_
  obtain ⟨member, ask⟩ := List.mem_filter.mp inside
  obtain ⟨present, answer⟩ := List.mem_filter.mp within
  exact keeps x member y present ask answer related

theorem PairedOff.append {fresh : List α} (paired : PairedOff R asks answers rows)
    (neither : ∀ x ∈ fresh, asks x = false ∧ answers x = false) :
    PairedOff R asks answers (rows ++ fresh) := by
  have none {p : α → Bool} (off : ∀ x ∈ fresh, p x = false) : fresh.filter p = [] :=
    List.filter_eq_nil_iff.mpr fun x member holds => by simp [off x member] at holds
  unfold PairedOff
  rwa [List.filter_append, List.filter_append, none fun x member => (neither x member).1,
    none fun x member => (neither x member).2, List.append_nil, List.append_nil]

theorem PairedOff.cons {x y : α} (paired : PairedOff R asks answers rows) (related : R x y)
    (asked : (rows'.filter asks).Perm (x :: rows.filter asks))
    (answered : (rows'.filter answers).Perm (y :: rows.filter answers)) :
    PairedOff R asks answers rows' := by
  unfold PairedOff
  rw [Multiset.coe_eq_coe.mpr asked, Multiset.coe_eq_coe.mpr answered, ← Multiset.cons_coe,
    ← Multiset.cons_coe]
  exact Multiset.Rel.cons related paired

theorem filter_update {p chosen : α → Bool} {change : α → α}
    (apart : ∀ x ∈ rows, chosen x = true → p x = false)
    (becomes : ∀ x ∈ rows, chosen x = true → p (change x) = true) :
    ((rows.map fun x => if chosen x then change x else x).filter p).Perm
      ((rows.filter chosen).map change ++ rows.filter p) := by
  induction rows with
  | nil => exact List.Perm.refl _
  | cons x rest ih =>
      have later := ih (fun y member => apart y (List.mem_cons_of_mem x member))
        fun y member => becomes y (List.mem_cons_of_mem x member)
      by_cases mine : chosen x = true
      · have off := apart x List.mem_cons_self mine
        have on := becomes x List.mem_cons_self mine
        simpa [mine, off, on] using later
      · by_cases holds : p x = true
        · simp only [List.map_cons, mine, Bool.false_eq_true, if_false, List.filter_cons, holds, if_true]
          exact (later.cons x).trans List.perm_middle.symm
        · simpa [mine, holds] using later

end FileSharing.Library
