import FileSharing.Library.Fallible
import Mathlib.Data.List.Nodup
import Mathlib.Data.List.Perm.Subperm

/-! Rows that are made from other rows, grouped by a key. -/

namespace FileSharing.Library

variable {α β κ : Type} [DecidableEq κ]

theorem filter_key (key : α → κ) {rows : List α} (nodup : (rows.map key).Nodup) {row : α} (member : row ∈ rows) :
    rows.filter (fun r => key r = key row) = [row] := by
  induction rows with
  | nil => cases member
  | cons first rest ih =>
      obtain ⟨apart, later⟩ := List.nodup_cons.mp nodup
      rcases List.mem_cons.mp member with rfl | inside
      · have none : rest.filter (fun r => key r = key row) = [] := by
          refine List.filter_eq_nil_iff.mpr fun r present same => apart ?_
          have equal : key r = key row := by simpa using same
          exact equal ▸ List.mem_map_of_mem present
        rw [List.filter_cons_of_pos (by simp), none]
      · have other : key first ≠ key row := by
          intro same
          exact apart (same ▸ List.mem_map_of_mem inside)
        rw [List.filter_cons_of_neg (by simpa using other), ih later inside]

theorem filter_related (key : α → κ) (tag : β → κ) {R : α → β → Prop} {rows : List α}
    {made : List β} (related : List.Forall₂ R rows made)
    (same : ∀ r m, R r m → tag m = key r) (k : κ) :
    List.Forall₂ R (rows.filter fun r => key r = k) (made.filter fun m => tag m = k) := by
  induction related with
  | nil => exact List.Forall₂.nil
  | @cons r m rows made head _ ih =>
      have equal := same r m head
      by_cases mine : key r = k
      · rw [List.filter_cons_of_pos (by simpa using mine),
          List.filter_cons_of_pos (by simpa [equal] using mine)]
        exact List.Forall₂.cons head ih
      · rw [List.filter_cons_of_neg (by simpa using mine),
          List.filter_cons_of_neg (by simpa [equal] using mine)]
        exact ih

theorem filter_flatten (key : α → κ) (tag : β → κ) {R : α → List β → Prop} {rows : List α} {parts : List (List β)}
    (related : List.Forall₂ R rows parts)
    (same : ∀ r part, R r part → ∀ m ∈ part, tag m = key r) (k : κ) :
    ∃ mine, List.Forall₂ R (rows.filter fun r => key r = k) mine ∧
      parts.flatten.filter (fun m => tag m = k) = mine.flatten := by
  induction related with
  | nil => exact ⟨[], List.Forall₂.nil, rfl⟩
  | @cons r part rows parts head _ ih =>
      obtain ⟨mine, rest, equal⟩ := ih
      have tags := same r part head
      by_cases chosen : key r = k
      · refine ⟨part :: mine, ?_, ?_⟩
        · rw [List.filter_cons_of_pos (by simpa using chosen)]
          exact List.Forall₂.cons head rest
        · have whole : part.filter (fun m => tag m = k) = part :=
            List.filter_eq_self.mpr fun m member => by simpa [tags m member] using chosen
          rw [List.flatten_cons, List.filter_append, whole, equal, List.flatten_cons]
      · refine ⟨mine, ?_, ?_⟩
        · rwa [List.filter_cons_of_neg (by simpa using chosen)]
        · have none : part.filter (fun m => tag m = k) = [] :=
            List.filter_eq_nil_iff.mpr fun m member => by simpa [tags m member] using chosen
          rw [List.flatten_cons, List.filter_append, none, List.nil_append, equal]

theorem filter_zipIdx (key : α → κ) (rows : List α) (k : κ) :
    ((rows.zipIdx.filter fun p => key p.1 = k).map Prod.fst) = rows.filter fun r => key r = k := by
  conv_rhs => rw [← List.zipIdx_map_fst 0 rows, List.filter_map]
  rfl

theorem rows_of_subperm {f : α → β} {values : List β} {rows : List α}
    (found : values.Subperm (rows.map f)) :
    ∃ chosen : List α, chosen.Subperm rows ∧ chosen.map f = values := by
  obtain ⟨mid, same, inside⟩ := found
  obtain ⟨part, sublist, rfl⟩ := List.sublist_map_iff.mp inside
  have pairs : List.Forall₂ (fun value row => value = f row) (part.map f) part := by
    rw [List.forall₂_map_left_iff, List.forall₂_same]
    exact fun _ _ => rfl
  obtain ⟨chosen, values, perm⟩ := List.perm_comp_forall₂ same.symm pairs
  refine ⟨chosen, ⟨part, perm.symm, sublist⟩, ?_⟩
  rw [← List.forall₂_eq_eq_eq, List.forall₂_map_left_iff]
  exact values.flip.imp fun _ _ equal => equal.symm

end FileSharing.Library
