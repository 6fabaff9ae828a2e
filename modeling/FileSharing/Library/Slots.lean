import Mathlib.Data.List.Nodup
import Mathlib.Logic.Function.Basic
import Mathlib.Tactic

/-! An array of slots with occupancy marks: filling a free slot adds one value to the
contents and emptying an occupied slot removes one. -/

namespace FileSharing.Library

variable {ι α : Type} [DecidableEq ι]

def contents (slots : List ι) (occupied : ι → Bool) (value : ι → Option α) : List α :=
  (slots.filter occupied).filterMap value

omit [DecidableEq ι] in
theorem contents_congr {slots : List ι} {occupied occupied' : ι → Bool}
    {value value' : ι → Option α} (marks : ∀ i ∈ slots, occupied i = occupied' i)
    (values : ∀ i ∈ slots, occupied i = true → value i = value' i) :
    contents slots occupied value = contents slots occupied' value' := by
  unfold contents
  rw [← List.filter_congr marks]
  apply List.filterMap_congr
  intro i member
  exact values i (List.mem_of_mem_filter member) (List.of_mem_filter member)

omit [DecidableEq ι] in
theorem contents_append (left right : List ι) (occupied : ι → Bool) (value : ι → Option α) :
    contents (left ++ right) occupied value =
      contents left occupied value ++ contents right occupied value := by
  simp [contents]

omit [DecidableEq ι] in
theorem mem_contents {slots : List ι} {occupied : ι → Bool} {value : ι → Option α} {a : α} :
    a ∈ contents slots occupied value ↔ ∃ i ∈ slots, occupied i = true ∧ value i = some a := by
  simp [contents, and_assoc]

theorem contents_split {before after : List ι} {i : ι} (outside : i ∉ before ++ after)
    (occupied : ι → Bool) (value : ι → Option α) (mark : Bool) (v : Option α) :
    contents (before ++ i :: after) (Function.update occupied i mark) (Function.update value i v) =
      contents before occupied value ++ (if mark then v.toList else []) ++
        contents after occupied value := by
  have same (part : List ι) (sub : ∀ k ∈ part, k ∈ before ++ after) :
      contents part (Function.update occupied i mark) (Function.update value i v) =
        contents part occupied value := by
    have other (k : ι) (inside : k ∈ part) : k ≠ i := fun h => outside (h ▸ sub k inside)
    apply contents_congr
    · intro k inside
      exact Function.update_of_ne (other k inside) _ _
    · intro k inside _
      exact Function.update_of_ne (other k inside) _ _
  rw [contents_append, List.append_assoc, same before fun k h => List.mem_append_left _ h]
  congr 1
  rw [← List.singleton_append, contents_append, same after fun k h => List.mem_append_right _ h]
  congr 1
  cases mark with
  | false => simp [contents]
  | true => cases v <;> simp [contents]

theorem contents_at {slots : List ι} (nodup : slots.Nodup) {i : ι} (member : i ∈ slots)
    (occupied : ι → Bool) (value : ι → Option α) :
    ∃ left right, ∀ (mark : Bool) (v : Option α),
      contents slots (Function.update occupied i mark) (Function.update value i v) =
        left ++ (if mark then v.toList else []) ++ right := by
  obtain ⟨before, after, rfl⟩ := List.append_of_mem member
  have outside : i ∉ before ++ after := (List.nodup_cons.mp (List.nodup_middle.mp nodup)).1
  exact ⟨_, _, contents_split outside occupied value⟩

theorem contents_fill {slots : List ι} (nodup : slots.Nodup) {i : ι} (member : i ∈ slots)
    {occupied : ι → Bool} (free : occupied i = false) (value : ι → Option α) (a : α) :
    (contents slots (Function.update occupied i true) (Function.update value i (some a))).Perm
      (a :: contents slots occupied value) := by
  obtain ⟨left, right, split⟩ := contents_at nodup member occupied value
  have before : contents slots occupied value = left ++ right := by
    have h := split false (value i)
    rw [← free, Function.update_eq_self, Function.update_eq_self] at h
    simpa [free] using h
  rw [split, before]
  simp

theorem contents_clear {slots : List ι} (nodup : slots.Nodup) {i : ι} (member : i ∈ slots)
    {occupied : ι → Bool} (taken : occupied i = true) {value : ι → Option α} {a : α}
    (holds : value i = some a) :
    (contents slots occupied value).Perm
      (a :: contents slots (Function.update occupied i false) value) := by
  obtain ⟨left, right, split⟩ := contents_at nodup member occupied value
  have before : contents slots occupied value = left ++ [a] ++ right := by
    have h := split true (value i)
    rw [← taken, Function.update_eq_self, Function.update_eq_self] at h
    simpa [taken, holds] using h
  have after : contents slots (Function.update occupied i false) value = left ++ right := by
    have h := split false (value i)
    rw [Function.update_eq_self] at h
    simpa using h
  rw [before, after]
  simp

end FileSharing.Library
