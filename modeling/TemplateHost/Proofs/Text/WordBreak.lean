import Mathlib.Data.List.Infix
import TemplateHost.Library.Strings

/-!
# Where words are broken

Breaks cut a text into parts: no cut lies in a tag, and in no part does a stretch of a word exceed
the limit. A text whose words all fit is left as it is, with one exception: the bracket that closes
a tag is counted with the word behind it, so directly after a tag a word has one character less.
-/
namespace TemplateHost

namespace Text
variable {tooLong : Nat → Bool} {s before part u v w : List Char} {run : Nat} {inTag : Bool}
  {c : Char}

theorem eq_nil_or_of_snoc_eq_append (h : part ++ [c] = u ++ w) :
    w = [] ∨ ∃ w', w = w' ++ [c] ∧ part = u ++ w' := by
  rcases List.eq_nil_or_concat w with rfl | ⟨w', x, rfl⟩
  · exact Or.inl rfl
  · rw [List.concat_eq_append, ← List.append_assoc] at h
    obtain ⟨hpart, hx⟩ := List.append_inj' h rfl
    obtain rfl := List.singleton_inj.mp hx
    exact Or.inr ⟨w', List.concat_eq_append, hpart⟩

section Tags

/-- A tag is open at the end: some left angle bracket has no right one after it. -/
def EndsInTag (s : List Char) : Prop := ∃ before tag, s = before ++ '<' :: tag ∧ '>' ∉ tag

theorem not_endsInTag_nil : ¬EndsInTag [] := by
  rintro ⟨before, tag, heq, -⟩
  cases before <;> cases heq

theorem endsInTag_snoc : EndsInTag (s ++ [c]) ↔ c = '<' ∨ c ≠ '>' ∧ EndsInTag s := by
  constructor
  · rintro ⟨before, tag, heq, htag⟩
    rcases eq_nil_or_of_snoc_eq_append heq with hnil | ⟨tag', hcons, rfl⟩
    · cases hnil
    · cases tag' with
      | nil => exact Or.inl (List.cons.inj hcons).1.symm
      | cons x tag' =>
        rw [List.cons_append, List.cons.injEq] at hcons
        obtain ⟨rfl, rfl⟩ := hcons
        simp only [List.mem_append, List.mem_singleton, not_or] at htag
        exact Or.inr ⟨Ne.symm htag.2, before, tag', rfl, htag.1⟩
  · rintro (rfl | ⟨hc, before, tag, rfl, htag⟩)
    · exact ⟨s, [], rfl, List.not_mem_nil⟩
    · exact ⟨before, tag ++ [c], by simp, by simpa [htag] using hc.symm⟩

theorem tagOpen_iff (hopen : inTag = true ↔ EndsInTag s) (c : Char) :
    tagOpen inTag c = true ↔ EndsInTag (s ++ [c]) := by
  rw [endsInTag_snoc, ← hopen]
  unfold tagOpen
  split_ifs with hleft hright
  · simp [hleft]
  · simp [hright]
  · simp [hleft, hright]

end Tags

section Stretches

/-- Characters of one word that stand after `before`: none is blank and none is in a tag. -/
structure IsStretch (before w : List Char) : Prop where
  outside : ¬EndsInTag before
  noTag : '<' ∉ w
  solid : ∀ c ∈ w, isBlank c = false

/-- Characters that are counted together: none is blank, and after none a tag is open. -/
def Counted (before : List Char) : List Char → Prop
  | [] => True
  | c :: r => isBlank c = false ∧ ¬EndsInTag (before ++ [c]) ∧ Counted (before ++ [c]) r

theorem counted_append :
    Counted before (u ++ v) ↔ Counted before u ∧ Counted (before ++ u) v := by
  induction u generalizing before with
  | nil => simp [Counted]
  | cons c u ih => simp [Counted, ih, and_assoc]

theorem counted_singleton :
    Counted before [c] ↔ isBlank c = false ∧ ¬EndsInTag (before ++ [c]) := by
  simp [Counted]

theorem isStretch_iff : IsStretch before w ↔ ¬EndsInTag before ∧ Counted before w := by
  induction w generalizing before with
  | nil => exact ⟨fun h => ⟨h.outside, trivial⟩, fun h => ⟨h.1, List.not_mem_nil, nofun⟩⟩
  | cons c w ih =>
    constructor
    · rintro ⟨houtside, hnoTag, hsolid⟩
      rw [List.mem_cons, not_or] at hnoTag
      obtain ⟨hblank, hsolid⟩ := List.forall_mem_cons.mp hsolid
      have hclosed : ¬EndsInTag (before ++ [c]) := by
        rw [endsInTag_snoc]
        exact fun h => h.elim (Ne.symm hnoTag.1) fun h => houtside h.2
      exact ⟨houtside, hblank, hclosed, (ih.mp ⟨hclosed, hnoTag.2, hsolid⟩).2⟩
    · rintro ⟨houtside, hblank, hclosed, hcounted⟩
      have hrest := ih.mpr ⟨hclosed, hcounted⟩
      have hc : c ≠ '<' := fun heq => hclosed (endsInTag_snoc.mpr (Or.inl heq))
      refine ⟨houtside, ?_, List.forall_mem_cons.mpr ⟨hblank, hrest.solid⟩⟩
      rw [List.mem_cons, not_or]
      exact ⟨hc.symm, hrest.noTag⟩

/-- What is counted where a tag is open starts with the bracket that closes the tag. -/
theorem counted_of_endsInTag (hopen : EndsInTag before) :
    Counted before (c :: w) ↔ c = '>' ∧ IsStretch (before ++ ['>']) w := by
  rw [isStretch_iff, Counted, endsInTag_snoc]
  constructor
  · rintro ⟨-, hclosed, hw⟩
    obtain rfl : c = '>' := by
      by_contra hc
      exact hclosed (Or.inr ⟨hc, hopen⟩)
    exact ⟨rfl, by rw [endsInTag_snoc]; exact hclosed, hw⟩
  · rintro ⟨rfl, hclosed, hw⟩
    exact ⟨by decide, by rwa [endsInTag_snoc] at hclosed, hw⟩

end Stretches

/-- A limit on words: one character is within it, and what is within it stays so when it gets
shorter. -/
structure IsLimit (tooLong : Nat → Bool) : Prop where
  one : tooLong 1 = false
  mono {j k : Nat} : j ≤ k → tooLong k = false → tooLong j = false

/-- Nothing that is counted together is too long. -/
def Fits (tooLong : Nat → Bool) (before part : List Char) : Prop :=
  ∀ u w v, part = u ++ w ++ v → Counted (before ++ u) w → tooLong w.length = false

section Reading

/-- What is known when `part` has been read since the last break, which comes after `before`. -/
structure Reading (tooLong : Nat → Bool) (before part : List Char) (run : Nat) (inTag : Bool) :
    Prop where
  opened : inTag = true ↔ EndsInTag (before ++ part)
  idle : inTag = true → run = 0
  fits : Fits tooLong before part
  counted : ∃ u w, part = u ++ w ∧ w.length = run ∧ Counted (before ++ u) w
  longest : ∀ u w, part = u ++ w → Counted (before ++ u) w → w.length ≤ run

theorem reading_nil (h : IsLimit tooLong) : Reading tooLong [] [] 0 false where
  opened := iff_of_false Bool.false_ne_true not_endsInTag_nil
  idle := nofun
  fits u w v heq _ := by
    obtain ⟨huw, -⟩ := List.append_eq_nil_iff.mp heq.symm
    obtain ⟨-, rfl⟩ := List.append_eq_nil_iff.mp huw
    exact h.mono (Nat.zero_le 1) h.one
  counted := ⟨[], [], rfl, rfl, trivial⟩
  longest u w heq _ := by
    obtain ⟨-, rfl⟩ := List.append_eq_nil_iff.mp heq.symm
    exact le_rfl

theorem Reading.counts_iff (hr : Reading tooLong before part run inTag) :
    (tagOpen inTag c || isBlank c) = false ↔ Counted (before ++ part) [c] := by
  rw [counted_singleton, ← tagOpen_iff hr.opened, Bool.or_eq_false_iff, Bool.not_eq_true]
  exact and_comm

theorem Reading.opened_snoc (hr : Reading tooLong before part run inTag) (c : Char) :
    tagOpen inTag c = true ↔ EndsInTag (before ++ (part ++ [c])) := by
  rw [← List.append_assoc]
  exact tagOpen_iff hr.opened c

theorem Reading.not_counted (hr : Reading tooLong before part run inTag)
    (hopen : tagOpen inTag c = true) : ¬Counted (before ++ part) [c] := by
  rw [← hr.counts_iff, hopen, Bool.true_or]
  decide

theorem Fits.snoc (hfits : Fits tooLong before part)
    (hend : ∀ u w, part ++ [c] = u ++ w → Counted (before ++ u) w → tooLong w.length = false) :
    Fits tooLong before (part ++ [c]) := by
  intro u w v heq hw
  rcases eq_nil_or_of_snoc_eq_append heq with rfl | ⟨v', -, rfl⟩
  · exact hend u w (by rw [heq, List.append_nil]) hw
  · exact hfits u w v' rfl hw

theorem Reading.pass (hr : Reading tooLong before part run inTag) (h : IsLimit tooLong)
    (hc : ¬Counted (before ++ part) [c]) :
    Reading tooLong before (part ++ [c]) 0 (tagOpen inTag c) := by
  have hend (u w : List Char) (heq : part ++ [c] = u ++ w) (hw : Counted (before ++ u) w) :
      w = [] := by
    rcases eq_nil_or_of_snoc_eq_append heq with hnil | ⟨w', rfl, rfl⟩
    · exact hnil
    · rw [← List.append_assoc] at hc
      exact absurd (counted_append.mp hw).2 hc
  refine ⟨hr.opened_snoc c, fun _ => rfl, hr.fits.snoc fun u w heq hw => ?_,
    ⟨part ++ [c], [], by simp, rfl, trivial⟩, fun u w heq hw => ?_⟩
  · rw [hend u w heq hw]
    exact h.mono (Nat.zero_le 1) h.one
  · rw [hend u w heq hw]
    exact le_rfl

theorem Reading.extend (hr : Reading tooLong before part run inTag) (h : IsLimit tooLong)
    (hc : Counted (before ++ part) [c]) (hrun : tooLong (run + 1) = false) :
    Reading tooLong before (part ++ [c]) (run + 1) (tagOpen inTag c) := by
  have hend (u w : List Char) (heq : part ++ [c] = u ++ w) (hw : Counted (before ++ u) w) :
      w.length ≤ run + 1 := by
    rcases eq_nil_or_of_snoc_eq_append heq with rfl | ⟨w', rfl, rfl⟩
    · exact Nat.zero_le _
    · have hle := hr.longest u w' rfl (counted_append.mp hw).1
      rw [List.length_append, List.length_singleton]
      omega
  refine ⟨hr.opened_snoc c, fun hopen => absurd hc (hr.not_counted hopen),
    hr.fits.snoc fun u w heq hw => ?_, ?_, hend⟩
  · exact h.mono (hend u w heq hw) hrun
  · obtain ⟨u, w, rfl, rfl, hw⟩ := hr.counted
    rw [← List.append_assoc] at hc
    exact ⟨u, w ++ [c], by simp, by simp, counted_append.mpr ⟨hw, hc⟩⟩

/-- Where a break is due the text so far does not end in a tag, and what is counted up to the next
character is too long. -/
theorem Reading.overlong (hr : Reading tooLong before part run inTag) (h : IsLimit tooLong)
    (hc : Counted (before ++ part) [c]) (hrun : tooLong (run + 1) = true) :
    part ≠ [] ∧ ¬EndsInTag (before ++ part) ∧ ¬Fits tooLong before (part ++ [c]) := by
  have hpos : run ≠ 0 := by
    rintro rfl
    rw [h.one] at hrun
    cases hrun
  obtain ⟨u, w, hpart, hlen, hw⟩ := hr.counted
  refine ⟨?_, fun hopen => hpos (hr.idle (hr.opened.mpr hopen)), fun hfits => ?_⟩
  · rintro rfl
    obtain ⟨-, rfl⟩ := List.append_eq_nil_iff.mp hpart.symm
    exact hpos hlen.symm
  · subst hpart
    rw [← List.append_assoc] at hc
    have hlong := hfits u (w ++ [c]) [] (by simp) (counted_append.mpr ⟨hw, hc⟩)
    rw [List.length_append, List.length_singleton, hlen, hrun] at hlong
    cases hlong

theorem Reading.restart (hr : Reading tooLong before part run inTag) (h : IsLimit tooLong)
    (hc : Counted (before ++ part) [c]) :
    Reading tooLong (before ++ part) [c] 1 (tagOpen inTag c) := by
  have hle {u w : List Char} (heq : [c] = u ++ w) : w.length ≤ 1 := by
    have hlen := congrArg List.length heq
    rw [List.length_append, List.length_singleton] at hlen
    omega
  refine ⟨tagOpen_iff hr.opened c, fun hopen => absurd hc (hr.not_counted hopen),
    fun u w v heq _ => ?_, ⟨[], [c], rfl, rfl, by simpa using hc⟩, fun u w heq _ => hle heq⟩
  rw [List.append_assoc] at heq
  refine h.mono ?_ h.one
  have hlen := hle heq
  rw [List.length_append] at hlen
  omega

end Reading

section Breaking

theorem breakWordsFrom_cons (tooLong : Nat → Bool) (run : Nat) (inTag : Bool) (c : Char)
    (r : List Char) : breakWordsFrom tooLong run inTag (c :: r) =
      if tagOpen inTag c || isBlank c then
        c :: breakWordsFrom tooLong 0 (tagOpen inTag c) r
      else if tooLong (run + 1) then
        wordBreak ++ c :: breakWordsFrom tooLong 1 (tagOpen inTag c) r
      else c :: breakWordsFrom tooLong (run + 1) (tagOpen inTag c) r := rfl

/-- Parts into which the text after `before` is cut. -/
structure Cut (tooLong : Nat → Bool) (before : List Char) (parts : List (List Char)) : Prop where
  nonempty : [] ∉ parts
  outside (left right : List (List Char)) : parts = left ++ right → left ≠ [] → right ≠ [] →
    ¬EndsInTag (before ++ left.flatten)
  fits (left right : List (List Char)) (part : List Char) : parts = left ++ part :: right →
    Fits tooLong (before ++ left.flatten) part

theorem cut_singleton (hne : part ≠ []) (hfits : Fits tooLong before part) :
    Cut tooLong before [part] := by
  refine ⟨by simpa using hne.symm, fun left right heq hleft hright => ?_,
    fun left right x heq => ?_⟩
  · have hlen := congrArg List.length heq
    have hl := List.length_pos_iff.mpr hleft
    have hr := List.length_pos_iff.mpr hright
    rw [List.length_append, List.length_singleton] at hlen
    omega
  · rcases List.singleton_eq_append_iff.mp heq with ⟨rfl, h⟩ | ⟨-, h⟩
    · obtain ⟨rfl, -⟩ := List.cons.inj h
      simpa using hfits
    · cases h

theorem Cut.cons {parts : List (List Char)} (hne : part ≠ [])
    (houtside : ¬EndsInTag (before ++ part)) (hfits : Fits tooLong before part)
    (hcut : Cut tooLong (before ++ part) parts) : Cut tooLong before (part :: parts) := by
  refine ⟨?_, fun left right heq hleft hright => ?_, fun left right x heq => ?_⟩
  · rw [List.mem_cons, not_or]
    exact ⟨hne.symm, hcut.nonempty⟩
  · rcases List.cons_eq_append_iff.mp heq with ⟨rfl, -⟩ | ⟨left, rfl, rfl⟩
    · exact absurd rfl hleft
    · rw [List.flatten_cons, ← List.append_assoc]
      by_cases hnil : left = []
      · simpa [hnil] using houtside
      · exact hcut.outside left right rfl hnil hright
  · rcases List.cons_eq_append_iff.mp heq with ⟨rfl, h⟩ | ⟨left, rfl, h⟩
    · obtain ⟨rfl, -⟩ := List.cons.inj h
      simpa using hfits
    · rw [List.flatten_cons, ← List.append_assoc]
      exact hcut.fits left right x h

/-- The next character continues the part, or a break comes before it: then the part, which does not
end in a tag, would not have fitted together with it. -/
theorem Reading.step (h : IsLimit tooLong) (hr : Reading tooLong before part run inTag) (c : Char)
    (s : List Char) :
    (∃ run' inTag', Reading tooLong before (part ++ [c]) run' inTag' ∧
      breakWordsFrom tooLong run inTag (c :: s) = c :: breakWordsFrom tooLong run' inTag' s) ∨
    (part ≠ [] ∧ ¬EndsInTag (before ++ part) ∧ ¬Fits tooLong before (part ++ [c]) ∧ c ≠ '<' ∧
      ∃ run' inTag', Reading tooLong (before ++ part) [c] run' inTag' ∧
        breakWordsFrom tooLong run inTag (c :: s) =
          wordBreak ++ c :: breakWordsFrom tooLong run' inTag' s) := by
  rw [breakWordsFrom_cons]
  cases hcount : tagOpen inTag c || isBlank c with
  | true =>
    have hc : ¬Counted (before ++ part) [c] := by
      rw [← hr.counts_iff, hcount]
      decide
    exact Or.inl ⟨_, _, hr.pass h hc, if_pos rfl⟩
  | false =>
    have hc := hr.counts_iff.mp hcount
    rw [if_neg Bool.false_ne_true]
    cases hrun : tooLong (run + 1) with
    | false => exact Or.inl ⟨_, _, hr.extend h hc hrun, if_neg Bool.false_ne_true⟩
    | true =>
      obtain ⟨hpart, houtside, hlong⟩ := hr.overlong h hc hrun
      have hleft : c ≠ '<' := by
        rintro rfl
        rw [tagOpen, if_pos rfl] at hcount
        cases hcount
      exact Or.inr ⟨hpart, houtside, hlong, hleft, _, _, hr.restart h hc, if_pos rfl⟩

/-- What is left to read is cut as it should be, the part that has been started included. -/
theorem Reading.exists_cut (h : IsLimit tooLong) (hr : Reading tooLong before part run inTag)
    (hne : part ++ s ≠ []) : ∃ parts, Cut tooLong before parts ∧ parts.flatten = part ++ s ∧
      List.intercalate wordBreak parts = part ++ breakWordsFrom tooLong run inTag s := by
  induction s generalizing before part run inTag with
  | nil =>
    rw [List.append_nil] at hne
    exact ⟨[part], cut_singleton hne hr.fits, by simp, by simp [breakWordsFrom]⟩
  | cons c s ih =>
    rcases hr.step h c s with ⟨run', inTag', hr', hout⟩ |
      ⟨hpart, houtside, -, -, run', inTag', hr', hout⟩
    · simpa [hout] using ih hr' (by simp)
    · obtain ⟨parts, hcut, hflat, hparts⟩ := ih hr' (by simp)
      have hne : parts ≠ [] := by
        rintro rfl
        cases hflat
      refine ⟨part :: parts, hcut.cons hpart houtside hr.fits, ?_, ?_⟩
      · rw [List.flatten_cons, hflat, List.singleton_append]
      · rw [List.intercalate_cons_of_ne_nil hne, hparts, hout]
        simp

/-- A text stays as it is just when all that is counted together fits. -/
theorem Reading.breakWordsFrom_eq_self_iff (h : IsLimit tooLong)
    (hr : Reading tooLong [] part run inTag) :
    breakWordsFrom tooLong run inTag s = s ↔ Fits tooLong [] (part ++ s) := by
  induction s generalizing part run inTag with
  | nil =>
    rw [List.append_nil]
    exact iff_of_true rfl hr.fits
  | cons c s ih =>
    rcases hr.step h c s with ⟨run', inTag', hr', hout⟩ | ⟨-, -, hlong, hleft, _, _, -, hout⟩
    · rw [hout, List.append_cons part c s, List.cons.injEq, and_iff_right rfl]
      exact ih hr'
    · -- A break starts with an angle bracket, which this character is not.
      refine iff_of_false (fun heq => ?_) fun hfits => hlong fun u w v hpart hw => ?_
      · exact hleft (List.cons.inj (hout.symm.trans heq)).1.symm
      · exact hfits u w (v ++ s) (by rw [List.append_cons, hpart]; simp) hw

theorem breakWordsFrom_of_hasWordFrom (tooLong : Nat → Bool) (run : Nat)
    (hs : hasWordFrom inTag s = false) : breakWordsFrom tooLong run inTag s = s := by
  induction s generalizing run inTag with
  | nil => rfl
  | cons c s ih =>
    obtain ⟨hc, hrest⟩ := Bool.or_eq_false_iff.mp hs
    rw [Bool.not_eq_false'] at hc
    rw [breakWordsFrom_cons, if_pos hc, ih 0 hrest]

end Breaking

/-- Parts of a text that breaks may stand between: none is empty, no cut lies in a tag, and the
stretches of words within a part are short. -/
structure IsBreaking (short : Nat → Prop) (s : List Char) (parts : List (List Char)) : Prop where
  flatten : parts.flatten = s
  nonempty : [] ∉ parts
  outside (left right : List (List Char)) : parts = left ++ right → left ≠ [] → right ≠ [] →
    ¬EndsInTag left.flatten
  short (left right : List (List Char)) (part u w v : List Char) :
    parts = left ++ part :: right → part = u ++ w ++ v → IsStretch (left.flatten ++ u) w →
      short w.length

section Limit

theorem exists_isBreaking (h : IsLimit tooLong) (s : List Char) :
    ∃ parts, IsBreaking (tooLong · = false) s parts ∧
      breakWords tooLong s = List.intercalate wordBreak parts := by
  by_cases hs : s = []
  · subst hs
    refine ⟨[], ⟨rfl, List.not_mem_nil, fun left right heq hleft _ => ?_,
      fun left right part u w v heq => ?_⟩, rfl⟩
    · exact absurd (List.append_eq_nil_iff.mp heq.symm).1 hleft
    · cases (List.append_eq_nil_iff.mp heq.symm).2
  · obtain ⟨parts, hcut, hflat, hout⟩ := (reading_nil h).exists_cut h (s := s) hs
    refine ⟨parts, ⟨hflat, hcut.nonempty, hcut.outside, ?_⟩, hout.symm⟩
    intro left right part u w v hparts hpart hw
    exact hcut.fits left right part hparts u w v hpart (isStretch_iff.mp hw).2

/-- All that is counted together fits if the words do, those behind a tag with one character
more. -/
theorem fits_iff (h : IsLimit tooLong) : Fits tooLong [] s ↔
    (∀ u w v, s = u ++ w ++ v → IsStretch u w → tooLong w.length = false) ∧
    ∀ u w v, s = u ++ '>' :: (w ++ v) → EndsInTag u → IsStretch (u ++ ['>']) w →
      tooLong (w.length + 1) = false := by
  constructor
  · refine fun hfits => ⟨fun u w v heq hw => hfits u w v heq (isStretch_iff.mp hw).2, ?_⟩
    intro u w v heq hopen hw
    have hcounted : Counted u ('>' :: w) := (counted_of_endsInTag hopen).mpr ⟨rfl, hw⟩
    exact hfits u ('>' :: w) v (by rw [heq]; simp) hcounted
  · rintro ⟨hwords, hbehind⟩ u w v heq hw
    rw [List.nil_append] at hw
    cases w with
    | nil => exact h.mono (Nat.zero_le 1) h.one
    | cons c w =>
      by_cases hopen : EndsInTag u
      · obtain ⟨rfl, hstretch⟩ := (counted_of_endsInTag hopen).mp hw
        exact hbehind u w v (by rw [heq]; simp) hopen hstretch
      · exact hwords u (c :: w) v heq (isStretch_iff.mpr ⟨hopen, hw⟩)

theorem breakWords_eq_self_iff (h : IsLimit tooLong) :
    breakWords tooLong s = s ↔ Fits tooLong [] s := (reading_nil h).breakWordsFrom_eq_self_iff h

end Limit

end Text

namespace Number.Numeric
variable {m n : Numeric} {o : Ordering} {j k : Int}

theorem le_of_compare? (h : m.compare? n = some o) : m.le n = o.isLE := by
  unfold le
  rw [h]
  cases o <;> rfl

theorem int_le_int_iff : (Numeric.int j).le (.int k) = true ↔ j ≤ k := by
  rw [le_of_compare? rfl, Int.isLE_compare]

theorem compare?_int (n : Numeric) (k : Int) :
    n.compare? (.int k) = ((Numeric.int k).compare? n).map Ordering.swap := by
  cases n with
  | int m => exact congrArg some (Int.compare_swap k m).symm
  | float x => simp [compare?, Function.comp_def]

theorem exists_compare?_int (hn : n ≠ .float .nan) (k : Int) :
    ∃ o, (Numeric.int k).compare? n = some o := by
  cases n with
  | int m => exact ⟨_, rfl⟩
  | float x =>
    cases x with
    | finite s m e => exact ⟨_, rfl⟩
    | infinite s => exact ⟨_, rfl⟩
    | nan => exact absurd rfl hn

theorem lt_int_eq (hn : n ≠ .float .nan) (k : Int) : n.lt (.int k) = !(Numeric.int k).le n := by
  obtain ⟨o, ho⟩ := exists_compare?_int hn k
  rw [le_of_compare? ho, lt, compare?_int, ho]
  cases o <;> rfl

theorem int_le_of_le (hjk : j ≤ k) (hk : (Numeric.int k).le n = true) :
    (Numeric.int j).le n = true := by
  cases n with
  | int m =>
    rw [int_le_int_iff] at hk ⊢
    exact Int.le_trans hjk hk
  | float x =>
    cases x with
    | finite s m e =>
      rw [le_of_compare? rfl, Int.compare_swap, Int.isLE_compare] at hk ⊢
      exact Int.le_trans (Int.mul_le_mul_of_nonneg_right hjk (Int.natCast_nonneg _)) hk
    | infinite s => exact hk
    | nan => cases hk

end Number.Numeric

namespace Library
open Number Text
variable {n : Numeric} {limit : Value}

theorem lt_int_eq_false_iff (hone : (Numeric.int 1).le n = true) (k : Int) :
    n.lt (.int k) = false ↔ (Numeric.int k).le n = true := by
  rw [Numeric.lt_int_eq (by rintro rfl; cases hone), Bool.not_eq_false']

theorem isLimit_lt (hone : (Numeric.int 1).le n = true) : IsLimit fun k => n.lt (.int k) where
  one := (lt_int_eq_false_iff hone 1).mpr hone
  mono hjk hk := by
    rw [lt_int_eq_false_iff hone] at hk ⊢
    exact Numeric.int_le_of_le (Int.ofNat_le.mpr hjk) hk

theorem insertWordBreaks_str (d : Describer) (s : String) (hlimit : limit.number? = some n) :
    insertWordBreaks d (.str s) limit =
      .ok (ofChars (breakWords (fun k => n.lt (.int k)) s.toList)) := by
  have hnumber : numberOf d limit = .ok n := by
    unfold numberOf
    rw [hlimit]
  have hchars : charsOf d (.str s) = .ok s.toList := rfl
  unfold insertWordBreaks
  cases hword : hasWord s.toList with
  | true => simp [hchars, hword, hnumber, bind, Except.bind, pure, Except.pure]
  | false =>
    rw [breakWords, breakWordsFrom_of_hasWordFrom _ 0 hword]
    simp [hchars, hword, bind, Except.bind, pure, Except.pure]

/-- **Breaks bound the words and cut no tag**: with a limit of at least one, the text comes back cut
into parts with a break between each two, none of them empty and no cut in a tag, and the characters
between two blanks, tags or breaks are never more than the limit. -/
theorem insertWordBreaks_bounded (d : Describer) (s : String) (hlimit : limit.number? = some n)
    (hone : (Numeric.int 1).le n = true) :
    ∃ parts, IsBreaking (fun k => (Numeric.int k).le n = true) s.toList parts ∧
      insertWordBreaks d (.str s) limit =
        .ok (.str (String.ofList (List.intercalate wordBreak parts))) := by
  obtain ⟨parts, hparts, hout⟩ := exists_isBreaking (isLimit_lt hone) s.toList
  simp only [lt_int_eq_false_iff hone] at hparts
  exact ⟨parts, hparts, by rw [insertWordBreaks_str d s hlimit, hout]; rfl⟩

/-- A word behind a tag, and a tag with a blank in it. -/
theorem insertWordBreaks_bounded_markup :
    let d : Describer := ⟨fun _ => "object", fun _ => "object"⟩
    (Value.int 3).number? = some (.int 3) ∧ (Numeric.int 1).le (.int 3) = true ∧
      insertWordBreaks d (.str "<i a>wide web") (.int 3) = .ok (.str "<i a>wi<wbr>de web") ∧
      ∃ parts, IsBreaking (fun k => (Numeric.int k).le (.int 3) = true) "<i a>wide web".toList
          parts ∧
        insertWordBreaks d (.str "<i a>wide web") (.int 3) =
          .ok (.str (String.ofList (List.intercalate wordBreak parts))) := by
  intro d
  have hone : (Numeric.int 1).le (.int 3) = true := by decide
  exact ⟨rfl, hone, rfl, insertWordBreaks_bounded d "<i a>wide web" rfl hone⟩

/-- **What is left unbroken**: with a limit of at least one, the texts in which no word exceeds the
limit, nor reaches it directly behind a tag. -/
theorem insertWordBreaks_eq_self_iff (d : Describer) (s : String)
    (hlimit : limit.number? = some n) (hone : (Numeric.int 1).le n = true) :
    insertWordBreaks d (.str s) limit = .ok (.str s) ↔
      (∀ u w v, s.toList = u ++ w ++ v → IsStretch u w → (Numeric.int w.length).le n = true) ∧
      ∀ u w v, s.toList = u ++ '>' :: (w ++ v) → EndsInTag u → IsStretch (u ++ ['>']) w →
        (Numeric.int (w.length + 1)).le n = true := by
  have hlimits := isLimit_lt hone
  rw [insertWordBreaks_str d s hlimit, ofChars, Except.ok.injEq, Value.str.injEq,
    ← String.toList_inj, String.toList_ofList, breakWords_eq_self_iff hlimits, fits_iff hlimits]
  simp only [lt_int_eq_false_iff hone, Int.natCast_add, Int.natCast_one]

/-- Both words of a text have at most two characters; the one behind the tag is broken. -/
theorem insertWordBreaks_eq_self_iff_behindTag :
    let d : Describer := ⟨fun _ => "object", fun _ => "object"⟩
    (Value.int 2).number? = some (.int 2) ∧ (Numeric.int 1).le (.int 2) = true ∧
      (∀ u w v, "<b>ab".toList = u ++ w ++ v → IsStretch u w →
        (Numeric.int w.length).le (.int 2) = true) ∧
      insertWordBreaks d (.str "<b>ab") (.int 2) ≠ .ok (.str "<b>ab") := by
  intro d
  have hone : (Numeric.int 1).le (.int 2) = true := by decide
  refine ⟨rfl, hone, fun u w v heq hw => ?_, fun hsame => ?_⟩
  · have htext : ['<', 'b', '>', 'a', 'b'] = u ++ w ++ v := heq
    have hlen := congrArg List.length htext
    simp only [List.length_append, List.length_cons, List.length_nil] at hlen
    rw [Numeric.int_le_int_iff]
    by_contra hlong
    rcases u with _ | ⟨x, _ | ⟨y, u⟩⟩
    · rcases w with _ | ⟨c, w⟩
      · exact hlong (by decide)
      · obtain rfl : '<' = c := (List.cons.inj htext).1
        exact hw.noTag List.mem_cons_self
    · obtain rfl : '<' = x := (List.cons.inj htext).1
      exact hw.outside ⟨[], [], rfl, by decide⟩
    · obtain ⟨rfl, htail⟩ : '<' = x ∧ _ := List.cons.inj htext
      obtain rfl : 'b' = y := (List.cons.inj htail).1
      rw [List.length_cons, List.length_cons] at hlen
      obtain rfl : u = [] := List.length_eq_zero_iff.mp (by omega)
      exact hw.outside ⟨[], ['b'], rfl, by decide⟩
  · obtain ⟨-, hbehind⟩ := (insertWordBreaks_eq_self_iff d "<b>ab" rfl hone).mp hsame
    have hclosed : ¬EndsInTag (['<', 'b'] ++ ['>']) := by
      rw [endsInTag_snoc]
      exact fun h => h.elim (by decide) fun h => h.1 rfl
    have hsolid : ∀ c ∈ ['a', 'b'], isBlank c = false :=
      List.forall_mem_cons.mpr ⟨rfl, List.forall_mem_cons.mpr ⟨rfl, nofun⟩⟩
    have hstretch : IsStretch (['<', 'b'] ++ ['>']) ['a', 'b'] := ⟨hclosed, by decide, hsolid⟩
    have hlong := hbehind ['<', 'b'] ['a', 'b'] [] rfl ⟨[], ['b'], rfl, by decide⟩ hstretch
    have hle := Numeric.int_le_int_iff.mp hlong
    simp only [List.length_cons, List.length_nil] at hle
    omega

end Library

end TemplateHost
