import Mathlib.Data.List.Nodup
import Mathlib.Tactic

/-! A table with a key, as an open transaction sees it: the committed rows, some of them in
a version that the transaction wrote, and the rows that it inserted. -/

namespace FileSharing.Library

variable {α κ : Type} [DecidableEq κ] (key : α → κ)

/-- The version of a committed row that the transaction sees. -/
def version (own : List α) (row : α) : α := (own.find? fun r => key r = key row).getD row

def overlay (rows own : List α) : List α :=
  rows.map (version key own) ++ own.filter fun r => key r ∉ rows.map key

def written [DecidableEq α] (own seen after : List α) : List α :=
  after.filter fun r => r ∉ seen || key r ∈ own.map key

variable {key} {rows own : List α}

theorem version_cases (key : α → κ) (own : List α) (row : α) :
    (version key own row = row ∧ key row ∉ own.map key) ∨
      (version key own row ∈ own ∧ key (version key own row) = key row) := by
  unfold version
  cases found : own.find? fun r => key r = key row with
  | none =>
      refine .inl ⟨rfl, fun member => ?_⟩
      obtain ⟨r, inside, same⟩ := List.mem_map.mp member
      exact absurd same (by simpa using List.find?_eq_none.mp found r inside)
  | some r =>
      exact .inr ⟨List.mem_of_find?_eq_some found, by simpa using List.find?_some found⟩

theorem key_version (key : α → κ) (own : List α) (row : α) : key (version key own row) = key row := by
  rcases version_cases key own row with ⟨same, -⟩ | ⟨-, same⟩
  · rw [same]
  · exact same

theorem version_unwritten {row : α} (unwritten : key row ∉ own.map key) :
    version key own row = row := by
  rcases version_cases key own row with ⟨same, -⟩ | ⟨member, same⟩
  · exact same
  · exact absurd (same ▸ List.mem_map_of_mem member) unwritten

theorem mem_overlay {r : α} : r ∈ overlay key rows own ↔
    (∃ row ∈ rows, version key own row = r) ∨ r ∈ own ∧ key r ∉ rows.map key := by
  rw [overlay, List.mem_append, List.mem_map, List.mem_filter]
  simp only [decide_eq_true_eq]

theorem keys_overlay (rows own : List α) : (overlay key rows own).map key =
    rows.map key ++ (own.map key).filter fun k => k ∉ rows.map key := by
  rw [overlay, List.map_append, List.map_map, List.filter_map]
  congr 1
  exact List.map_congr_left fun row _ => key_version key own row

theorem mem_keys_overlay {k : κ} :
    k ∈ (overlay key rows own).map key ↔ k ∈ rows.map key ∨ k ∈ own.map key := by
  rw [keys_overlay, List.mem_append, List.mem_filter]
  simp only [decide_eq_true_eq]
  tauto

theorem nodup_overlay (committed : (rows.map key).Nodup) (inserted : (own.map key).Nodup) :
    ((overlay key rows own).map key).Nodup := by
  rw [keys_overlay, List.nodup_append]
  refine ⟨committed, inserted.filter _, ?_⟩
  rintro k present other member rfl
  have absent : k ∉ rows.map key := by simpa using List.of_mem_filter member
  exact absent present

section Statement

variable [DecidableEq α] {seen after fresh : List α} {change : α → α}
  (view : seen = overlay key rows own) (moved : after = seen.map change ++ fresh)
  (kept : ∀ r, key (change r) = key r) (unique : (after.map key).Nodup)

theorem nodup_written (own seen : List α) (nodup : (after.map key).Nodup) :
    ((written key own seen after).map key).Nodup :=
  nodup.sublist (List.filter_sublist.map key)

omit [DecidableEq κ] [DecidableEq α] in
theorem keys_changed (kept : ∀ r, key (change r) = key r) (rows : List α) :
    (rows.map change).map key = rows.map key := by
  rw [List.map_map]
  exact List.map_congr_left fun r _ => kept r

include moved kept unique

omit [DecidableEq κ] [DecidableEq α] in
theorem nodup_parts : (seen.map key).Nodup ∧ ∀ r ∈ fresh, key r ∉ seen.map key := by
  rw [moved, List.map_append, keys_changed kept, List.nodup_append] at unique
  exact ⟨unique.1, fun r member present => unique.2.2 _ present _ (List.mem_map_of_mem member) rfl⟩

include view

theorem version_written {row : α} (member : row ∈ rows) :
    version key (written key own seen after) row = change (version key own row) := by
  have known : version key own row ∈ seen := view ▸ mem_overlay.mpr (.inl ⟨row, member, rfl⟩)
  have result : change (version key own row) ∈ after :=
    moved ▸ List.mem_append_left fresh (List.mem_map_of_mem known)
  have same : key (change (version key own row)) = key row := (kept _).trans (key_version key own row)
  rcases version_cases key (written key own seen after) row with
    ⟨equal, absent⟩ | ⟨inside, equal⟩
  · -- neither this statement nor one before it wrote the row
    have unwritten : change (version key own row) ∉ written key own seen after :=
      fun inside => absent (same ▸ List.mem_map_of_mem inside)
    simp only [written, List.mem_filter, result, Bool.or_eq_true, decide_eq_true_eq, true_and,
      not_or, not_not] at unwritten
    obtain ⟨stays, never⟩ := unwritten
    have first : version key own row = row := version_unwritten (same ▸ never)
    rw [equal]
    exact List.inj_on_of_nodup_map (nodup_parts moved kept unique).1 (first ▸ known) stays
      same.symm
  · exact List.inj_on_of_nodup_map unique (List.mem_of_mem_filter inside) result
      (equal.trans same.symm)

theorem inserted_written :
    (written key own seen after).filter (fun r => key r ∉ rows.map key) =
      (own.filter fun r => key r ∉ rows.map key).map change ++ fresh := by
  have versions : ((rows.map (version key own)).map change).filter (fun r =>
      decide (key r ∉ rows.map key) && (decide (r ∉ seen) || decide (key r ∈ own.map key))) = [] := by
    refine List.filter_eq_nil_iff.mpr fun r member holds => ?_
    simp only [Bool.and_eq_true, decide_eq_true_eq] at holds
    obtain ⟨old, inside, rfl⟩ := List.mem_map.mp member
    obtain ⟨row, present, rfl⟩ := List.mem_map.mp inside
    have same : key (change (version key own row)) = key row :=
      (kept _).trans (key_version key own row)
    exact holds.1 (same ▸ List.mem_map_of_mem present)
  have before : ((own.filter fun r => key r ∉ rows.map key).map change).filter (fun r =>
      decide (key r ∉ rows.map key) && (decide (r ∉ seen) || decide (key r ∈ own.map key))) =
        (own.filter fun r => key r ∉ rows.map key).map change := by
    refine List.filter_eq_self.mpr fun r member => ?_
    obtain ⟨old, inside, rfl⟩ := List.mem_map.mp member
    obtain ⟨mine, absent⟩ := List.mem_filter.mp inside
    simp only [Bool.and_eq_true, Bool.or_eq_true, decide_eq_true_eq, kept]
    exact ⟨by simpa using absent, .inr (List.mem_map_of_mem mine)⟩
  have now : fresh.filter (fun r => decide (key r ∉ rows.map key) &&
      (decide (r ∉ seen) || decide (key r ∈ own.map key))) = fresh := by
    refine List.filter_eq_self.mpr fun r member => ?_
    have absent := (nodup_parts moved kept unique).2 r member
    have other : key r ∉ rows.map key := fun present =>
      absent (view ▸ mem_keys_overlay.mpr (.inl present))
    have new : r ∉ seen := fun present => absent (List.mem_map_of_mem present)
    simp [other, new]
  have split : seen.map change = (rows.map (version key own)).map change ++
      (own.filter fun r => key r ∉ rows.map key).map change := by
    rw [view, overlay, List.map_append]
  rw [written, List.filter_filter, moved, split, List.filter_append, List.filter_append, versions,
    before, now, List.nil_append]

theorem overlay_written : overlay key rows (written key own seen after) = after := by
  have versions : rows.map (version key (written key own seen after)) =
      (rows.map (version key own)).map change := by
    rw [List.map_map]
    exact List.map_congr_left fun row member => version_written view moved kept unique member
  rw [overlay, versions, inserted_written view moved kept unique, ← List.append_assoc,
    ← List.map_append, ← overlay, ← view, moved]

end Statement

end FileSharing.Library
