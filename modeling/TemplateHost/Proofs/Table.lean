import Mathlib.Data.List.Nodup
import TemplateHost.Table

/-!
# Looking up in tables

A value that is found under a key stands in the table. If no key is there twice, what is found is
all that stands there under the key, and the order of the entries does not matter.
-/
namespace TemplateHost.Table
variable {κ ν : Type} [DecidableEq κ] {t : Table κ ν} {k : κ} {v : ν} {l l' : List (κ × ν)}

theorem mem_of_find (h : find k l = some v) : (k, v) ∈ l := by
  induction l with
  | nil => cases h
  | cons e r ih =>
    rw [find] at h
    split at h
    · next hkey => exact List.mem_cons.mpr (Or.inl (Prod.ext hkey.symm (Option.some.inj h).symm))
    · exact List.mem_cons_of_mem _ (ih h)

theorem find_of_mem (hl : (l.map Prod.fst).Nodup) (h : (k, v) ∈ l) : find k l = some v := by
  induction l with
  | nil => cases h
  | cons e r ih =>
    rw [List.map_cons, List.nodup_cons] at hl
    rw [find]
    rcases List.mem_cons.mp h with rfl | hr
    · exact if_pos rfl
    · have hne : e.1 ≠ k := by
        rintro rfl
        exact hl.1 (List.mem_map.mpr ⟨_, hr, rfl⟩)
      rw [if_neg hne]
      exact ih hl.2 hr

theorem find_eq_some_iff (hl : (l.map Prod.fst).Nodup) : find k l = some v ↔ (k, v) ∈ l :=
  ⟨mem_of_find, find_of_mem hl⟩

theorem find_eq_none_iff : find k l = none ↔ k ∉ l.map (·.1) := by
  rw [← find_isSome_iff, Option.not_isSome_iff_eq_none]

theorem find_of_perm (h : l.Perm l') (hl : (l.map Prod.fst).Nodup) : find k l = find k l' := by
  have hl' : (l'.map Prod.fst).Nodup := (h.map Prod.fst).nodup_iff.mp hl
  refine Option.ext fun v => ?_
  rw [find_eq_some_iff hl, find_eq_some_iff hl']
  exact h.mem_iff

theorem mem_keys_of_get? (h : t.get? k = some v) : k ∈ t.keys :=
  List.mem_map_of_mem (mem_of_find h)

end TemplateHost.Table
