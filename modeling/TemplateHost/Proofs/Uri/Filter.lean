import Mathlib.Data.List.Infix
import TemplateHost.Library.Content

/-!
# Filtered addresses

An address that has been filtered holds only characters that may stand in one, and its scheme, if
it has any, is one of the safe ones. Percent encoding neither makes nor hides a colon or a slash, so
the test of the raw text decides about the encoded one, and filtering again changes nothing.
-/
namespace TemplateHost

namespace Uri
variable {s : List Char} {c : Char}

/-- A character that may stand in an address. -/
def MayStand (c : Char) : Prop := c.isAlphanum = true ∨ c ∈ punctuation

/-- An address without a scheme, or with a safe one. -/
def Harmless (s : List Char) : Prop :=
  ':' ∉ s ∨ '/' ∈ s.takeWhile (· ≠ ':') ∨
    ∃ scheme ∈ safeSchemes, scheme <+: s.map Char.toLower

theorem isKept_iff : (isUnreserved c || punctuation.contains c) = true ↔ MayStand c := by
  have hmarks : c ∈ ['_', '.', '-', '~'] → c ∈ punctuation := by
    simp only [punctuation, List.mem_cons, List.not_mem_nil, or_false]
    tauto
  unfold isUnreserved MayStand
  rw [Bool.or_eq_true, Bool.or_eq_true, List.contains_iff_mem, List.contains_iff_mem]
  tauto

section Encode

theorem encodeChar_of_mayStand (hc : MayStand c) : encodeChar punctuation.contains c = [c] :=
  if_pos (isKept_iff.mpr hc)

theorem isAlphanum_hexDigit : ∀ n < 16, (hexDigit n).isAlphanum = true := by decide

theorem mem_encodeChar_of_not_mayStand (hc : ¬MayStand c) {a : Char}
    (ha : a ∈ encodeChar punctuation.contains c) : a = '%' ∨ a.isAlphanum = true := by
  unfold encodeChar at ha
  rw [if_neg (mt isKept_iff.mp hc)] at ha
  obtain ⟨b, -, hb⟩ := List.mem_flatMap.mp ha
  have hbyte : b.toNat < 256 := b.toNat_lt
  simp only [percentByte, List.mem_cons, List.not_mem_nil, or_false] at hb
  rcases hb with rfl | rfl | rfl
  · exact Or.inl rfl
  · exact Or.inr (isAlphanum_hexDigit _ (by omega))
  · exact Or.inr (isAlphanum_hexDigit _ (by omega))

theorem mayStand_of_mem_encodeChar {a : Char} (ha : a ∈ encodeChar punctuation.contains c) :
    MayStand a := by
  by_cases hc : MayStand c
  · rw [encodeChar_of_mayStand hc, List.mem_singleton] at ha
    exact ha ▸ hc
  · rcases mem_encodeChar_of_not_mayStand hc ha with rfl | hdigit
    · exact Or.inr (by decide)
    · exact Or.inl hdigit

theorem mem_encodeChar_iff {a : Char} (ha : a ∈ punctuation) (hpercent : a ≠ '%')
    (hdigit : a.isAlphanum = false) : a ∈ encodeChar punctuation.contains c ↔ a = c := by
  by_cases hc : MayStand c
  · rw [encodeChar_of_mayStand hc, List.mem_singleton]
  · refine iff_of_false (fun hmem => ?_) ?_
    · rcases mem_encodeChar_of_not_mayStand hc hmem with rfl | hd
      · exact hpercent rfl
      · rw [hdigit] at hd
        cases hd
    · rintro rfl
      exact hc (Or.inr ha)

end Encode

section Normalize

theorem normalize_cons (c : Char) (s : List Char) :
    normalize (c :: s) = encodeChar punctuation.contains c ++ normalize s := List.flatMap_cons ..

theorem normalize_append (s t : List Char) : normalize (s ++ t) = normalize s ++ normalize t :=
  encode_append ..

theorem mayStand_of_mem_normalize (hc : c ∈ normalize s) : MayStand c := by
  obtain ⟨a, -, ha⟩ := List.mem_flatMap.mp hc
  exact mayStand_of_mem_encodeChar ha

theorem normalize_of_mayStand (hs : ∀ c ∈ s, MayStand c) : normalize s = s := by
  induction s with
  | nil => rfl
  | cons c s ih =>
    rw [normalize_cons, encodeChar_of_mayStand (hs c List.mem_cons_self),
      ih fun a ha => hs a (List.mem_cons_of_mem c ha)]
    rfl

theorem normalize_normalize (s : List Char) : normalize (normalize s) = normalize s :=
  normalize_of_mayStand fun _ => mayStand_of_mem_normalize

theorem mem_normalize_iff (hc : c ∈ punctuation) (hpercent : c ≠ '%')
    (hdigit : c.isAlphanum = false) : c ∈ normalize s ↔ c ∈ s := by
  unfold normalize encode
  rw [List.mem_flatMap]
  simp only [mem_encodeChar_iff hc hpercent hdigit]
  exact ⟨fun ⟨a, ha, heq⟩ => heq ▸ ha, fun hmem => ⟨c, hmem, rfl⟩⟩

theorem takeWhile_normalize (s : List Char) :
    (normalize s).takeWhile (· ≠ ':') = normalize (s.takeWhile (· ≠ ':')) := by
  induction s with
  | nil => rfl
  | cons c s ih =>
    by_cases hc : c = ':'
    · subst c
      rfl
    · have hbefore : ∀ a ∈ encodeChar punctuation.contains c, decide (a ≠ ':') = true := by
        rintro a ha
        refine decide_eq_true fun heq => hc ?_
        exact ((mem_encodeChar_iff (by decide) (by decide) (by decide)).mp (heq ▸ ha)).symm
      rw [normalize_cons, List.takeWhile_append_of_pos hbefore, ih,
        List.takeWhile_cons_of_pos (by simpa using hc), normalize_cons]

end Normalize

section Filter

theorem hasScheme_eq_false_iff :
    hasScheme s = false ↔ ':' ∉ s ∨ '/' ∈ s.takeWhile (· ≠ ':') := by
  unfold hasScheme
  rw [Bool.and_eq_false_iff, Bool.not_eq_false', List.contains_iff_mem, ← Bool.not_eq_true,
    List.contains_iff_mem]

theorem hasSafeScheme_iff : hasSafeScheme s = true ↔
    ∃ scheme ∈ safeSchemes, scheme <+: s.map Char.toLower := by
  unfold hasSafeScheme
  simp only [List.any_eq_true, List.isPrefixOf_iff_prefix]

theorem harmless_iff : Harmless s ↔ hasScheme s = false ∨ hasSafeScheme s = true := by
  rw [hasScheme_eq_false_iff, hasSafeScheme_iff, or_assoc]
  rfl

theorem filter_of_harmless (hs : Harmless s) : filter s = normalize s := by
  unfold filter
  refine if_neg fun hforeign => ?_
  rw [Bool.and_eq_true, Bool.not_eq_true'] at hforeign
  rcases harmless_iff.mp hs with hno | hsafe
  · rw [hno] at hforeign
    cases hforeign.1
  · rw [hsafe] at hforeign
    cases hforeign.2

theorem filter_of_not_harmless (hs : ¬Harmless s) : filter s = invalidAddress := by
  unfold filter
  rw [harmless_iff, not_or, Bool.not_eq_false, Bool.not_eq_true] at hs
  rw [hs.1, hs.2]
  rfl

theorem mayStand_of_toLower {scheme : List Char} (hscheme : scheme ∈ safeSchemes)
    (hc : c.toLower ∈ scheme) : MayStand c := by
  have hall : safeSchemes.all (fun t => t.all fun a =>
      isUnreserved a || punctuation.contains a) = true := by decide
  by_cases hupper : c.isUpper = true
  · refine Or.inl ?_
    unfold Char.isAlphanum Char.isAlpha
    rw [hupper]
    rfl
  · have hsame : c.toLower = c := dif_neg (mt decide_eq_true hupper)
    rw [hsame] at hc
    exact isKept_iff.mp (List.all_eq_true.mp (List.all_eq_true.mp hall scheme hscheme) c hc)

/-- Encoding leaves a safe scheme as it is. -/
theorem harmless_normalize (hs : Harmless s) : Harmless (normalize s) := by
  rcases hs with hcolon | hslash | ⟨scheme, hscheme, rest, hrest⟩
  · exact Or.inl (mt (mem_normalize_iff (by decide) (by decide) (by decide)).mp hcolon)
  · refine Or.inr (Or.inl ?_)
    rw [takeWhile_normalize]
    exact (mem_normalize_iff (by decide) (by decide) (by decide)).mpr hslash
  · obtain ⟨start, later, rfl, hstart, -⟩ := List.map_eq_append_iff.mp hrest.symm
    have hkept : ∀ c ∈ start, MayStand c := fun c hc =>
      mayStand_of_toLower hscheme (hstart ▸ List.mem_map_of_mem hc)
    refine Or.inr (Or.inr ⟨scheme, hscheme, ?_⟩)
    rw [normalize_append, normalize_of_mayStand hkept, List.map_append, hstart]
    exact List.prefix_append _ _

theorem mayStand_invalidAddress : ∀ c ∈ invalidAddress, MayStand c := by
  have hall : invalidAddress.all (fun a => isUnreserved a || punctuation.contains a) = true := by
    decide
  exact fun c hc => isKept_iff.mp (List.all_eq_true.mp hall c hc)

theorem filter_invalidAddress : filter invalidAddress = invalidAddress := by decide

theorem filter_eq_self_iff :
    filter s = s ↔ (s = invalidAddress ∨ Harmless s) ∧ ∀ c ∈ s, MayStand c := by
  by_cases hs : Harmless s
  · rw [filter_of_harmless hs]
    refine ⟨fun heq => ⟨Or.inr hs, fun c hc => ?_⟩, fun h => normalize_of_mayStand h.2⟩
    exact mayStand_of_mem_normalize (s := s) (heq.symm ▸ hc)
  · rw [filter_of_not_harmless hs]
    refine ⟨fun heq => ?_, fun h => (h.1.resolve_right hs).symm⟩
    subst heq
    exact ⟨Or.inl rfl, mayStand_invalidAddress⟩

theorem filter_filter (s : List Char) : filter (filter s) = filter s := by
  by_cases hs : Harmless s
  · rw [filter_of_harmless hs, filter_of_harmless (harmless_normalize hs), normalize_normalize]
  · rw [filter_of_not_harmless hs, filter_invalidAddress]

end Filter

end Uri

namespace Library
open Uri

theorem filterNormalizeUri_str (d : Describer) (s : String) :
    filterNormalizeUri d (.str s) = .ok (.str (String.ofList (Uri.filter s.toList))) := rfl

/-- **No dangerous scheme gets through.** What a text is filtered to is the invalid address, or it
has no scheme or a safe one; it holds only characters that may stand in an address; and filtering it
again changes nothing. Just the texts of which this is true are left as they are. -/
theorem filterNormalizeUri_harmless (d : Describer) (s : String) :
    (∃ r : String, filterNormalizeUri d (.str s) = .ok (.str r) ∧
      (r = "about:invalid#zSoyz" ∨ Harmless r.toList) ∧ (∀ c ∈ r.toList, MayStand c) ∧
      filterNormalizeUri d (.str r) = .ok (.str r)) ∧
    (filterNormalizeUri d (.str s) = .ok (.str s) ↔
      (s = "about:invalid#zSoyz" ∨ Harmless s.toList) ∧ ∀ c ∈ s.toList, MayStand c) := by
  have hfixed (r : String) : filterNormalizeUri d (.str r) = .ok (.str r) ↔
      (r = "about:invalid#zSoyz" ∨ Harmless r.toList) ∧ ∀ c ∈ r.toList, MayStand c := by
    have hinvalid : r.toList = invalidAddress ↔ r = "about:invalid#zSoyz" := String.toList_inj
    rw [← hinvalid, ← filter_eq_self_iff, filterNormalizeUri_str, Except.ok.injEq, Value.str.injEq,
      ← String.toList_inj, String.toList_ofList]
  have hagain : filterNormalizeUri d (.str (String.ofList (Uri.filter s.toList))) =
      .ok (.str (String.ofList (Uri.filter s.toList))) := by
    rw [filterNormalizeUri_str, String.toList_ofList, filter_filter]
  obtain ⟨hscheme, hchars⟩ := (hfixed _).mp hagain
  exact ⟨⟨_, filterNormalizeUri_str d s, hscheme, hchars, hagain⟩, hfixed s⟩

/-- A scheme is told from a slash that comes before the colon, not from how it is written. -/
example (d : Describer) : filterNormalizeUri d (.str "JavaScript:x") =
      .ok (.str "about:invalid#zSoyz") ∧
    filterNormalizeUri d (.str "a/b:\u00e9") = .ok (.str "a/b:%C3%A9") := ⟨rfl, rfl⟩

end Library

end TemplateHost
