import Mathlib.Tactic.SplitIfs
import TemplateHost.Library.Content

/-!
# Escaped text

Escaping writes five characters as references and nothing else. Whatever follows such a reference,
reading takes exactly the reference back to its character, so an escaped text is read as the text.
-/
namespace TemplateHost.Html

def written : List (List Char) :=
  [['a', 'm', 'p', ';'], ['l', 't', ';'], ['g', 't', ';'], ['q', 'u', 'o', 't', ';'],
   ['#', '3', '9', ';']]

def special : List Char := ['&', '<', '>', '\x22', '\x27']

theorem escapeChar_cases (c : Char) :
    (c ∉ special ∧ escapeChar c = [c]) ∨
      (c ∈ special ∧ ∃ r ∈ written, escapeChar c = '&' :: r) := by
  unfold escapeChar special
  split_ifs with hamp hlt hgt hquot hapos
  · exact .inr ⟨by simp [hamp], ['a', 'm', 'p', ';'], by decide, rfl⟩
  · exact .inr ⟨by simp [hlt], ['l', 't', ';'], by decide, rfl⟩
  · exact .inr ⟨by simp [hgt], ['g', 't', ';'], by decide, rfl⟩
  · exact .inr ⟨by simp [hquot], ['q', 'u', 'o', 't', ';'], by decide, rfl⟩
  · exact .inr ⟨by simp [hapos], ['#', '3', '9', ';'], by decide, rfl⟩
  · exact .inl ⟨by simp [hamp, hlt, hgt, hquot, hapos], rfl⟩

theorem escape_cons (c : Char) (s : List Char) : escape (c :: s) = escapeChar c ++ escape s :=
  List.flatMap_cons

theorem not_mem_escape {c : Char} (hc : c ∈ special) (hamp : c ≠ '&') (s : List Char) :
    c ∉ escape s := by
  have hwritten : ∀ r ∈ written, ∀ a ∈ special, a ∉ r := by simp [written, special]
  induction s with
  | nil => exact List.not_mem_nil
  | cons a s ih =>
    rw [escape_cons, List.mem_append, not_or]
    refine ⟨?_, ih⟩
    rcases escapeChar_cases a with ⟨ha, heq⟩ | ⟨-, r, hr, heq⟩
    · rw [heq, List.mem_singleton]
      rintro rfl
      exact ha hc
    · rw [heq, List.mem_cons, not_or]
      exact ⟨hamp, hwritten r hr c hc⟩

/-- Every ampersand begins a reference. -/
theorem exists_written_of_escape {s before after : List Char}
    (hs : escape s = before ++ '&' :: after) : ∃ r ∈ written, r <+: after := by
  have hwritten : ∀ r ∈ written, '&' ∉ r := by decide
  induction s generalizing before with
  | nil => simp [escape] at hs
  | cons a s ih =>
    rw [escape_cons] at hs
    -- The ampersand is the one of the first character's reference, or comes after it.
    rcases List.append_eq_append_iff.mp hs with ⟨x, hbefore, hrest⟩ | ⟨x, hfirst, hrest⟩
    · exact ih hrest
    · rcases escapeChar_cases a with ⟨ha, heq⟩ | ⟨-, r, hr, heq⟩
      · cases x with
        | nil =>
          have hs : escape s = [] ++ '&' :: after := hrest.symm
          exact ih hs
        | cons b x =>
          obtain ⟨rfl, -⟩ := List.cons.inj hrest
          have hmem : '&' ∈ escapeChar a := by
            rw [hfirst]
            exact List.mem_append_right _ List.mem_cons_self
          rw [heq, List.mem_singleton] at hmem
          exact absurd (by rw [← hmem]; decide) ha
      · cases x with
        | nil =>
          have hs : escape s = [] ++ '&' :: after := hrest.symm
          exact ih hs
        | cons b x =>
          obtain ⟨rfl, rfl⟩ := List.cons.inj hrest
          rw [heq] at hfirst
          cases before with
          | nil =>
            obtain ⟨-, rfl⟩ := List.cons.inj hfirst
            exact ⟨r, hr, List.prefix_append _ _⟩
          | cons b before =>
            obtain ⟨-, rfl⟩ := List.cons.inj hfirst
            exact absurd (List.mem_append_right _ List.mem_cons_self) (hwritten _ hr)

/-- A text without special characters is escaped already, and no other is. -/
theorem escape_eq_self_iff {s : List Char} : escape s = s ↔ ∀ c ∈ s, c ∉ special := by
  constructor
  · intro hs c hc hspecial
    by_cases hamp : c = '&'
    · subst c
      obtain ⟨before, after, rfl⟩ := List.append_of_mem hc
      have hlength := congrArg List.length hs
      rw [escape_append, escape_cons] at hlength
      have hle (t : List Char) : t.length ≤ (escape t).length := by
        induction t with
        | nil => exact Nat.le_refl _
        | cons a t ih =>
          have hone : 1 ≤ (escapeChar a).length := by
            rcases escapeChar_cases a with ⟨-, heq⟩ | ⟨-, r, -, heq⟩ <;> simp [heq]
          rw [escape_cons, List.length_append, List.length_cons]
          omega
      have hbefore := hle before
      have hafter := hle after
      have hfive : (escapeChar '&').length = 5 := rfl
      simp only [List.length_append, List.length_cons, hfive] at hlength
      omega
    · exact not_mem_escape hspecial hamp s (hs.symm ▸ hc)
  · intro hs
    induction s with
    | nil => rfl
    | cons a s ih =>
      obtain ⟨ha, hs⟩ := List.forall_mem_cons.mp hs
      rcases escapeChar_cases a with ⟨-, heq⟩ | ⟨hspecial, -⟩
      · rw [escape_cons, heq, ih hs, List.singleton_append]
      · exact absurd hspecial ha

section Reading

theorem unescapeFrom_skip (x y : List Char) :
    unescapeFrom x.length (x ++ y) = unescapeFrom 0 y := by
  induction x with
  | nil => rfl
  | cons c x ih => exact ih

theorem unescapeFrom_of_ne {c : Char} (hc : c ≠ '&') (rest : List Char) :
    unescapeFrom 0 (c :: rest) = c :: unescapeFrom 0 rest := by
  rw [unescapeFrom, if_neg hc]

theorem unescapeFrom_reference {r t rest : List Char}
    (hr : reference? (r ++ rest) = some ⟨t, r.length⟩) :
    unescapeFrom 0 ('&' :: (r ++ rest)) = t ++ unescapeFrom 0 rest := by
  rw [unescapeFrom, if_pos rfl, hr]
  exact congrArg (t ++ ·) (unescapeFrom_skip r rest)

/-- A name with its semicolon is read as it is, whatever follows: no character of what follows can
be taken for part of it. -/
theorem namedReference?_semicolon {name text rest : List Char} (hne : name ≠ [])
    (hname : ∀ c ∈ name, isNameChar c = true) (hlength : name.length ≤ 31)
    (htext : Named.lookup? (name ++ [';']) = some text) :
    namedReference? (name ++ ';' :: rest) = some ⟨text, name.length + 1⟩ := by
  have hletters : ((name ++ ';' :: rest).take 32).takeWhile isNameChar = name := by
    obtain ⟨k, hk⟩ : ∃ k, 32 - name.length = k + 1 := ⟨31 - name.length, by omega⟩
    rw [List.take_append, List.take_of_length_le (by omega), hk, List.take_succ_cons,
      List.takeWhile_append_of_pos hname, List.takeWhile_cons_of_neg (by decide), List.append_nil]
  have hdrop : (name ++ ';' :: rest).drop name.length = ';' :: rest := List.drop_left
  have htake : (name ++ ';' :: rest).take (name.length + 1) = name ++ [';'] := by
    rw [List.take_append, List.take_of_length_le (by omega), Nat.add_sub_cancel_left]
    rfl
  have hempty : name.isEmpty = false := List.isEmpty_eq_false_iff.mpr hne
  have hwidth : withSemicolon name.length (';' :: rest) = name.length + 1 := if_pos rfl
  unfold namedReference?
  dsimp only
  rw [hletters, hdrop, hempty, hwidth, htake, namedText, htext]
  rfl

theorem reference?_of_ne_hash {c : Char} (hc : c ≠ '#') (rest : List Char) :
    reference? (c :: rest) = namedReference? (c :: rest) := by
  unfold reference?
  split
  · next heq => exact absurd (List.cons.inj heq).1 hc
  · next heq => exact absurd (List.cons.inj heq).1 hc
  · next heq => exact absurd (List.cons.inj heq).1 hc
  · rfl

theorem unescapeFrom_named {a c : Char} {n : List Char} (ha : a ≠ '#')
    (hname : (a :: n).all isNameChar = true) (hlength : (a :: n).length ≤ 31)
    (htext : Named.lookup? (a :: n ++ [';']) = some [c]) (rest : List Char) :
    unescapeFrom 0 ('&' :: (a :: n ++ [';'] ++ rest)) = c :: unescapeFrom 0 rest := by
  refine unescapeFrom_reference (t := [c]) ?_
  rw [List.append_assoc, List.cons_append, reference?_of_ne_hash ha, ← List.cons_append,
    List.singleton_append, namedReference?_semicolon (List.cons_ne_nil _ _)
      (List.all_eq_true.mp hname) hlength htext,
    List.length_append]
  rfl

/-- What is written for a character is read as the character, whatever follows. -/
theorem unescapeFrom_escapeChar (c : Char) (rest : List Char) :
    unescapeFrom 0 (escapeChar c ++ rest) = c :: unescapeFrom 0 rest := by
  unfold escapeChar
  split_ifs with hamp hlt hgt hquot hapos
  · subst c
    exact unescapeFrom_named (a := 'a') (n := ['m', 'p']) (by decide) (by decide) (by decide)
      (by decide +kernel) rest
  · subst c
    exact unescapeFrom_named (a := 'l') (n := ['t']) (by decide) (by decide) (by decide)
      (by decide +kernel) rest
  · subst c
    exact unescapeFrom_named (a := 'g') (n := ['t']) (by decide) (by decide) (by decide)
      (by decide +kernel) rest
  · subst c
    exact unescapeFrom_named (a := 'q') (n := ['u', 'o', 't']) (by decide) (by decide)
      (by decide) (by decide +kernel) rest
  · subst c
    exact unescapeFrom_reference (r := ['#', '3', '9', ';']) (t := ['\x27']) rfl
  · exact unescapeFrom_of_ne hamp rest

theorem unescape_escape_append (s t : List Char) : unescape (escape s ++ t) = s ++ unescape t := by
  unfold unescape
  induction s with
  | nil => rfl
  | cons c s ih =>
    rw [escape_cons, List.append_assoc, unescapeFrom_escapeChar, ih]
    rfl

theorem unescape_escape (s : List Char) : unescape (escape s) = s := by
  have hs := unescape_escape_append s []
  rwa [List.append_nil, show unescape [] = [] from rfl, List.append_nil] at hs

end Reading

end TemplateHost.Html
