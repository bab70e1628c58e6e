import TemplateHost.Proofs.Uri.Filter

/-!
# Schemes of addresses

An address has a scheme if a colon comes before every slash, question mark and number sign. The
filter looks for slashes alone: besides the addresses with a foreign scheme it rejects the relative
ones whose first colon stands in their query or fragment with no slash before it.
-/
namespace TemplateHost

namespace Uri
variable {s before after : List Char}

/-- A colon that no slash, question mark or number sign comes before. -/
def HasSchemePart (s : List Char) : Prop :=
  ∃ before after, s = before ++ ':' :: after ∧ '/' ∉ before ∧ '?' ∉ before ∧ '#' ∉ before

/-- The address starts with one of the safe schemes, whatever the case of its letters. -/
def StartsSafely (s : List Char) : Prop := ∃ scheme ∈ safeSchemes, scheme <+: s.map Char.toLower

def HasForeignScheme (s : List Char) : Prop := HasSchemePart s ∧ ¬StartsSafely s

/-- The first colon belongs to the query or the fragment, and no slash comes before it. -/
def HasLateColon (s : List Char) : Prop :=
  ∃ before after, s = before ++ ':' :: after ∧ ':' ∉ before ∧ '/' ∉ before ∧
    ('?' ∈ before ∨ '#' ∈ before)

section FirstColon

theorem takeWhile_of_colon (hbefore : ':' ∉ before) (after : List Char) :
    (before ++ ':' :: after).takeWhile (· ≠ ':') = before := by
  have hall : ∀ c ∈ before, decide (c ≠ ':') = true := fun c hc =>
    decide_eq_true fun heq => hbefore (heq ▸ hc)
  rw [List.takeWhile_append_of_pos hall, List.takeWhile_cons_of_neg (by decide), List.append_nil]

theorem eq_of_first_colon {before' after' : List Char}
    (heq : before ++ ':' :: after = before' ++ ':' :: after') (hbefore : ':' ∉ before)
    (hbefore' : ':' ∉ before') : before = before' := by
  rw [← takeWhile_of_colon hbefore after, heq, takeWhile_of_colon hbefore']

theorem hasScheme_iff : hasScheme s = true ↔
    ∃ before after, s = before ++ ':' :: after ∧ ':' ∉ before ∧ '/' ∉ before := by
  rw [← Bool.not_eq_false, hasScheme_eq_false_iff, not_or, not_not]
  constructor
  · rintro ⟨hcolon, hslash⟩
    obtain ⟨before, after, rfl, hbefore⟩ := List.eq_append_cons_of_mem hcolon
    rw [takeWhile_of_colon hbefore] at hslash
    exact ⟨before, after, rfl, hbefore, hslash⟩
  · rintro ⟨before, after, rfl, hbefore, hslash⟩
    rw [takeWhile_of_colon hbefore]
    exact ⟨by simp, hslash⟩

theorem HasSchemePart.first (hs : HasSchemePart s) : ∃ before after,
    s = before ++ ':' :: after ∧ ':' ∉ before ∧ '/' ∉ before ∧ '?' ∉ before ∧ '#' ∉ before := by
  obtain ⟨before, after, rfl, hslash, hquestion, hnumber⟩ := hs
  by_cases hcolon : ':' ∈ before
  · obtain ⟨first, rest, rfl, hfirst⟩ := List.eq_append_cons_of_mem hcolon
    simp only [List.mem_append, not_or] at hslash hquestion hnumber
    exact ⟨first, rest ++ ':' :: after, by simp, hfirst, hslash.1, hquestion.1, hnumber.1⟩
  · exact ⟨before, after, rfl, hcolon, hslash, hquestion, hnumber⟩

/-- What the filter takes for a scheme is one, or a colon in a query or fragment. -/
theorem hasScheme_iff_or : hasScheme s = true ↔ HasSchemePart s ∨ HasLateColon s := by
  rw [hasScheme_iff]
  constructor
  · rintro ⟨before, after, heq, hcolon, hslash⟩
    by_cases hlate : '?' ∈ before ∨ '#' ∈ before
    · exact Or.inr ⟨before, after, heq, hcolon, hslash, hlate⟩
    · rw [not_or] at hlate
      exact Or.inl ⟨before, after, heq, hslash, hlate.1, hlate.2⟩
  · rintro (hpart | ⟨before, after, heq, hcolon, hslash, -⟩)
    · obtain ⟨before, after, heq, hcolon, hslash, -, -⟩ := hpart.first
      exact ⟨before, after, heq, hcolon, hslash⟩
    · exact ⟨before, after, heq, hcolon, hslash⟩

theorem HasLateColon.not_hasSchemePart (hs : HasLateColon s) : ¬HasSchemePart s := by
  obtain ⟨before, after, heq, hcolon, -, hlate⟩ := hs
  intro hpart
  obtain ⟨before', after', heq', hcolon', -, hquestion, hnumber⟩ := hpart.first
  obtain rfl := eq_of_first_colon (heq.symm.trans heq') hcolon hcolon'
  rcases hlate with h | h
  · exact hquestion h
  · exact hnumber h

end FirstColon

section SafeStart

theorem eq_colon_of_toLower {c : Char} (hc : c.toLower = ':') : c = ':' := by
  unfold Char.toLower at hc
  split at hc
  · next hupper =>
    have hval := congrArg (fun a : Char => a.val.toNat) hc
    have hlow := UInt32.le_iff_toNat_le.mp hupper.1
    have hhigh := UInt32.le_iff_toNat_le.mp hupper.2
    simp only [UInt32.toNat_add, Char.reduceVal, UInt32.reduceToNat, UInt32.reduceSub]
      at hval hlow hhigh
    omega
  · exact hc

theorem exists_name_of_safe {scheme : List Char} (hscheme : scheme ∈ safeSchemes) :
    ∃ name, scheme = name ++ [':'] ∧ ∀ c ∈ name, c.isLower = true := by
  have hall : ∀ t ∈ safeSchemes, t = t.dropLast ++ [':'] ∧ t.dropLast.all Char.isLower = true := by
    decide
  obtain ⟨hname, hlower⟩ := hall scheme hscheme
  exact ⟨_, hname, List.all_eq_true.mp hlower⟩

theorem StartsSafely.hasSchemePart (hs : StartsSafely s) : HasSchemePart s := by
  obtain ⟨scheme, hscheme, rest, hrest⟩ := hs
  obtain ⟨name, rfl, hname⟩ := exists_name_of_safe hscheme
  rw [List.append_assoc] at hrest
  obtain ⟨before, later, rfl, hbefore, hlater⟩ := List.map_eq_append_iff.mp hrest.symm
  obtain ⟨c, after, rfl, hc, -⟩ := List.map_eq_cons_iff.mp hlater
  obtain rfl := eq_colon_of_toLower hc
  have hletters {a : Char} (ha : a.toLower.isLower = false) : a ∉ before := fun hmem => by
    rw [hname _ (hbefore ▸ List.mem_map_of_mem hmem)] at ha
    cases ha
  exact ⟨before, after, rfl, hletters (by decide), hletters (by decide), hletters (by decide)⟩

end SafeStart

section Rejection

theorem not_harmless_iff : ¬Harmless s ↔ HasForeignScheme s ∨ HasLateColon s := by
  have hlate (h : HasLateColon s) : ¬StartsSafely s := fun hsafe =>
    h.not_hasSchemePart hsafe.hasSchemePart
  have hsafe : hasSafeScheme s = true ↔ StartsSafely s := hasSafeScheme_iff
  rw [harmless_iff, not_or, Bool.not_eq_false, hasScheme_iff_or, hsafe, HasForeignScheme]
  tauto

theorem not_harmless_invalidAddress : ¬Harmless invalidAddress := by
  rw [harmless_iff, not_or]
  decide

theorem filter_eq_invalidAddress_iff : filter s = invalidAddress ↔ ¬Harmless s := by
  refine ⟨fun heq hs => ?_, filter_of_not_harmless⟩
  rw [filter_of_harmless hs] at heq
  exact not_harmless_invalidAddress (heq ▸ harmless_normalize hs)

end Rejection

end Uri

namespace Library
open Uri

/-- **What is rejected**: the addresses with a foreign scheme, and those with a late colon, which
are relative. Every other address is let through, percent-encoded. -/
theorem filterNormalizeUri_rejects (d : Describer) (s : String) :
    (filterNormalizeUri d (.str s) = .ok (.str "about:invalid#zSoyz") ↔
      HasForeignScheme s.toList ∨ HasLateColon s.toList) ∧
    (HasLateColon s.toList → ¬HasSchemePart s.toList) ∧
    (HasForeignScheme s.toList ∨ HasLateColon s.toList ∨
      filterNormalizeUri d (.str s) = .ok (.str (String.ofList (normalize s.toList)))) := by
  have hinvalid : filterNormalizeUri d (.str s) = .ok (.str "about:invalid#zSoyz") ↔
      Uri.filter s.toList = invalidAddress := by
    rw [filterNormalizeUri_str, Except.ok.injEq, Value.str.injEq, ← String.toList_inj,
      String.toList_ofList]
    rfl
  refine ⟨?_, HasLateColon.not_hasSchemePart, ?_⟩
  · rw [hinvalid, filter_eq_invalidAddress_iff, not_harmless_iff]
  · rw [← or_assoc, ← not_harmless_iff, filterNormalizeUri_str, ← imp_iff_not_or]
    exact fun hs => by rw [filter_of_harmless hs]

/-- A link to the same page whose query holds a time of day. -/
example (d : Describer) :
    filterNormalizeUri d (.str "?at=12:30") = .ok (.str "about:invalid#zSoyz") ∧
    filterNormalizeUri d (.str "./?at=12:30") = .ok (.str "./?at=12:30") := ⟨rfl, rfl⟩

end Library

end TemplateHost
