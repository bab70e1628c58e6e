import TemplateHost.Library.Directions

/-!
# Direction after inserted text

A text opens with the direction of its first strong character and closes with that of its last one.
The mark to be put after a text is chosen by how the text opens. It restores the direction of the
surroundings unless the text opens with that direction and closes against it: then there is no mark.
-/
namespace TemplateHost

namespace Bidi
variable {dir : Direction} {s t : List Char} {c : Char}

def IsStrong (s : List Char) : Prop := ∃ c ∈ s, strength? c ≠ none

def OpensWith (dir : Direction) (s : List Char) : Prop :=
  ∃ before c after, s = before ++ c :: after ∧ strength? c = some dir ∧
    ∀ a ∈ before, strength? a = none

def ClosesWith (dir : Direction) (s : List Char) : Prop :=
  ∃ before c after, s = before ++ c :: after ∧ strength? c = some dir ∧
    ∀ a ∈ after, strength? a = none

def Direction.opposite : Direction → Direction
  | .ltr => .rtl
  | .rtl => .ltr

theorem Direction.eq_or_opposite (dir g : Direction) : dir = g ∨ dir = g.opposite := by
  cases dir <;> cases g <;> decide

theorem Direction.opposite_ne (g : Direction) : g.opposite ≠ g := by cases g <;> decide

theorem direction?_eq_some_iff : direction? s = some dir ↔ OpensWith dir s :=
  List.findSome?_eq_some_iff

/-- How a text closes is how it opens when it is read backwards. -/
theorem closesWith_iff_reverse : ClosesWith dir s ↔ OpensWith dir s.reverse := by
  constructor
  · rintro ⟨before, c, after, rfl, hc, hafter⟩
    refine ⟨after.reverse, c, before.reverse, by simp, hc, fun a ha => ?_⟩
    exact hafter a (List.mem_reverse.mp ha)
  · rintro ⟨before, c, after, hs, hc, hbefore⟩
    refine ⟨after.reverse, c, before.reverse, ?_, hc, fun a ha => ?_⟩
    · rw [← List.reverse_reverse s, hs]
      simp
    · exact hbefore a (List.mem_reverse.mp ha)

theorem isStrong_iff_opens : IsStrong s ↔ ∃ dir, OpensWith dir s := by
  constructor
  · rintro ⟨c, hc, hstrong⟩
    simp only [← direction?_eq_some_iff, ← Option.isSome_iff_exists]
    exact List.findSome?_isSome_iff.mpr ⟨c, hc, Option.isSome_iff_ne_none.mpr hstrong⟩
  · rintro ⟨dir, before, c, after, rfl, hc, -⟩
    exact ⟨c, by simp, by simp [hc]⟩

theorem isStrong_iff_closes : IsStrong s ↔ ∃ dir, ClosesWith dir s := by
  simp only [closesWith_iff_reverse, ← isStrong_iff_opens]
  simp [IsStrong]

theorem OpensWith.unique {dir' : Direction} (h : OpensWith dir s) (h' : OpensWith dir' s) :
    dir = dir' := by
  rw [← direction?_eq_some_iff] at h h'
  exact Option.some.inj (h.symm.trans h')

theorem ClosesWith.unique {dir' : Direction} (h : ClosesWith dir s) (h' : ClosesWith dir' s) :
    dir = dir' :=
  (closesWith_iff_reverse.mp h).unique (closesWith_iff_reverse.mp h')

theorem closesWith_concat (s : List Char) (hc : strength? c = some dir) :
    ClosesWith dir (s ++ [c]) := ⟨s, c, [], rfl, hc, List.forall_mem_nil _⟩

end Bidi

namespace Library
open Bidi

theorem same_sign (dir g : Direction) :
    (Value.int dir.sign).same (.int g.sign) = decide (dir = g) := by
  cases dir <;> cases g <;> rfl

theorem surrounding_sign (d : Describer) (g : Direction) :
    surrounding d (.int g.sign) = .ok g := by
  cases g <;> rfl

theorem against?_str (d : Describer) (g : Direction) (s : String) :
    against? d (.int g.sign) (.str s) =
      .ok ((direction? s.toList).filter fun dir => decide (dir ≠ g)) := by
  have hchars : charsOf d (.str s) = .ok s.toList := rfl
  unfold against?
  rw [hchars]
  dsimp only [bind, Except.bind]
  cases direction? s.toList with
  | none => rfl
  | some dir =>
    simp only [same_sign, Option.filter_some]
    by_cases h : dir = g <;> simp [h, pure, Except.pure]

theorem bidiMarkAfter_of_opposite (d : Describer) {g : Direction} {s : String}
    (h : OpensWith g.opposite s.toList) :
    bidiMarkAfter d (.int g.sign) (.str s) = .ok (.str (String.singleton g.mark)) := by
  unfold bidiMarkAfter bidiMark
  rw [against?_str, direction?_eq_some_iff.mpr h, surrounding_sign, Option.filter_some,
    if_pos (decide_eq_true g.opposite_ne)]
  rfl

theorem bidiMarkAfter_of_not_opposite (d : Describer) {g : Direction} {s : String}
    (h : ¬OpensWith g.opposite s.toList) :
    bidiMarkAfter d (.int g.sign) (.str s) = .ok (.str "") := by
  have hnone : (direction? s.toList).filter (fun dir => decide (dir ≠ g)) = none := by
    rw [Option.filter_eq_none_iff]
    intro dir hdir hne
    rcases dir.eq_or_opposite g with rfl | rfl
    · exact of_decide_eq_true hne rfl
    · exact h (direction?_eq_some_iff.mp hdir)
  unfold bidiMarkAfter
  rw [against?_str, hnone]
  rfl

/-- **Where the mark restores the direction.** With the mark after it a text closes with the
direction of its surroundings if it did so before or opens against them. Of the texts with a strong
character this leaves out exactly those that open with that direction and close against it. -/
theorem bidiMarkAfter_restores_iff (d : Describer) (g : Direction) (s : String) :
    ∃ mark : String, bidiMarkAfter d (.int g.sign) (.str s) = .ok (.str mark) ∧
      (ClosesWith g (s ++ mark).toList ↔
        ClosesWith g s.toList ∨ OpensWith g.opposite s.toList) ∧
      (IsStrong s.toList ∧ ¬ClosesWith g (s ++ mark).toList ↔
        OpensWith g s.toList ∧ ClosesWith g.opposite s.toList) := by
  by_cases hopens : OpensWith g.opposite s.toList
  · refine ⟨_, bidiMarkAfter_of_opposite d hopens, ?_⟩
    have hmark : ClosesWith g (s ++ String.singleton g.mark).toList := by
      rw [String.toList_append, String.toList_singleton]
      exact closesWith_concat _ (strength?_mark g)
    refine ⟨iff_of_true hmark (Or.inr hopens), iff_of_false (fun h => h.2 hmark) fun h => ?_⟩
    exact g.opposite_ne (hopens.unique h.1)
  · refine ⟨_, bidiMarkAfter_of_not_opposite d hopens, ?_⟩
    rw [String.append_empty]
    refine ⟨by simp [hopens], ⟨fun ⟨hstrong, hcloses⟩ => ?_, fun ⟨hg, hcloses⟩ => ?_⟩⟩
    · obtain ⟨first, hfirst⟩ := isStrong_iff_opens.mp hstrong
      obtain ⟨last, hlast⟩ := isStrong_iff_closes.mp hstrong
      rcases first.eq_or_opposite g with rfl | rfl
      · rcases last.eq_or_opposite first with rfl | rfl
        · exact absurd hlast hcloses
        · exact ⟨hfirst, hlast⟩
      · exact absurd hfirst hopens
    · exact ⟨isStrong_iff_opens.mpr ⟨g, hg⟩, fun h => g.opposite_ne (hcloses.unique h)⟩

/-- A Latin letter with a Hebrew one behind it, in surroundings that run left to right. -/
example (d : Describer) : bidiMarkAfter d (.int 1) (.str "a\u05D0") = .ok (.str "") := by
  rfl

end Library

end TemplateHost
