import Mathlib.Data.List.Basic

/-!
# Sequences that grow at their end

Histories, calls and tables of ids grow by what is appended to them. Where an entry of the longer
sequence is told by what comes before and after it, it is one of the new entries, or it was there
and has more after it.
-/
namespace TemplateHost.Sequence
variable {α : Type} {l more before after : List α} {a x : α}

theorem split_append (heq : l ++ more = before ++ x :: after) :
    (∃ rest, l = before ++ x :: rest ∧ after = rest ++ more) ∨
      ∃ first, more = first ++ x :: after ∧ before = l ++ first := by
  rcases List.append_eq_append_iff.mp heq with ⟨first, hbefore, hmore⟩ | ⟨rest, hl, hafter⟩
  · exact Or.inr ⟨first, hmore, hbefore⟩
  · cases rest with
    | nil => exact Or.inr ⟨[], hafter.symm, by simp [hl]⟩
    | cons y rest =>
      obtain ⟨rfl, rfl⟩ := List.cons.inj hafter
      exact Or.inl ⟨rest, hl, rfl⟩

theorem split_append_of_not_mem (hmore : x ∉ more) (heq : l ++ more = before ++ x :: after) :
    ∃ rest, l = before ++ x :: rest ∧ after = rest ++ more := by
  rcases split_append heq with hearlier | ⟨first, rfl, -⟩
  · exact hearlier
  · exact absurd (by simp) hmore

theorem split_concat (heq : l ++ [a] = before ++ x :: after) :
    (∃ rest, l = before ++ x :: rest ∧ after = rest ++ [a]) ∨ before = l ∧ x = a ∧ after = [] := by
  rcases split_append heq with hearlier | ⟨first, hmore, rfl⟩
  · exact Or.inl hearlier
  · cases first with
    | nil =>
      obtain ⟨rfl, rfl⟩ := List.cons.inj hmore
      exact Or.inr ⟨List.append_nil l, rfl, rfl⟩
    | cons y first => simp at hmore

theorem getElem?_concat_eq_some_iff {b : α} {i : Nat} :
    (l ++ [a])[i]? = some b ↔ l[i]? = some b ∨ i = l.length ∧ b = a := by
  rcases Nat.lt_trichotomy i l.length with hi | hi | hi
  · rw [List.getElem?_append_left hi]
    constructor
    · exact Or.inl
    · rintro (h | ⟨rfl, -⟩)
      · exact h
      · exact absurd hi (Nat.lt_irrefl _)
  · subst i
    simp [eq_comm]
  · rw [List.getElem?_eq_none (by simp; omega), List.getElem?_eq_none (Nat.le_of_lt hi)]
    constructor
    · exact Or.inl
    · rintro (h | ⟨rfl, -⟩)
      · exact h
      · exact absurd hi (Nat.lt_irrefl _)

end TemplateHost.Sequence
