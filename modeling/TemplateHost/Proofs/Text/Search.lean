import TemplateHost.Text.Search

/-!
# Splitting and replacing

Splitting undoes joining. Replacing a field changes nothing where the field does not occur, and no
occurrence reaches over a character that is not in the field.
-/
namespace TemplateHost.Text

theorem splitAt_eq_splitOn (c : Char) (s : List Char) : splitAt c s = s.splitOn c := by
  induction s with
  | nil => rfl
  | cons a r ih =>
    rw [splitAt, List.splitOn_cons_eq_if_modifyHead, ih]
    by_cases h : a = c
    · simp [h]
    · obtain ⟨p, ps, hp⟩ := List.exists_cons_of_ne_nil (List.splitOn_ne_nil c r)
      simp [h, hp]

theorem splitAt_append_cons (c : Char) (a b : List Char) :
    splitAt c (a ++ c :: b) = splitAt c a ++ splitAt c b := by
  rw [splitAt_eq_splitOn, splitAt_eq_splitOn, splitAt_eq_splitOn, List.splitOn_append_cons_self]

theorem not_mem_of_mem_splitAt {c : Char} {s l : List Char} (hl : l ∈ splitAt c s) : c ∉ l := by
  induction s generalizing l with
  | nil =>
    rw [List.mem_singleton.mp hl]
    exact List.not_mem_nil
  | cons a r ih =>
    obtain ⟨q, qs, hq⟩ := List.exists_cons_of_ne_nil (splitAt_ne_nil c r)
    rw [splitAt, hq] at hl
    rw [hq] at ih
    split at hl
    · rcases List.mem_cons.mp hl with rfl | hl
      · exact List.not_mem_nil
      · exact ih hl
    · rename_i ha
      rcases List.mem_cons.mp hl with rfl | hl
      · have hq := ih List.mem_cons_self
        simpa [Ne.symm ha] using hq
      · exact ih (List.mem_cons_of_mem _ hl)

theorem dotless_dotted (name : String) : ∀ part ∈ dotted name, '.' ∉ part.toList := by
  intro part h
  obtain ⟨l, hl, rfl⟩ := List.mem_map.mp h
  rw [String.toList_ofList]
  exact not_mem_of_mem_splitAt hl

theorem splitAt_join (c : Char) {parts : List String} (hne : parts ≠ [])
    (hparts : ∀ p ∈ parts, c ∉ p.toList) :
    (splitAt c (join (String.singleton c) parts).toList).map String.ofList = parts := by
  have hchars : splitAt c (join (String.singleton c) parts).toList =
      parts.map String.toList := by
    rw [splitAt_eq_splitOn, join, String.toList_intercalate, String.toList_singleton]
    refine List.splitOn_intercalate c ?_ (fun h => hne (List.map_eq_nil_iff.mp h))
    intro l hl
    obtain ⟨p, hp, rfl⟩ := List.mem_map.mp hl
    exact hparts p hp
  simp [hchars, Function.comp_def]

theorem not_infix_of_indexOf? {needle s : List Char} (h : indexOf? needle s = none) :
    ¬ needle <:+: s := by
  induction s with
  | nil =>
    intro hinfix
    rw [List.eq_nil_of_infix_nil hinfix] at h
    cases h
  | cons c r ih =>
    rw [indexOf?] at h
    split at h
    · cases h
    · rename_i hinit
      intro hinfix
      rcases List.infix_cons_iff.mp hinfix with hp | hr
      · exact hinit (List.isPrefixOf_iff_prefix.mpr hp)
      · exact ih (Option.map_eq_none_iff.mp h) hr

section Replace
variable {field : List Char} (value : List Char)

theorem replaceFrom_skip (field : List Char) (x y : List Char) :
    replaceFrom field value x.length (x ++ y) = replaceFrom field value 0 y := by
  induction x with
  | nil => rfl
  | cons c r ih => exact ih

theorem replaceFrom_field (hne : field ≠ []) (y : List Char) :
    replaceFrom field value 0 (field ++ y) = value ++ replaceFrom field value 0 y := by
  obtain ⟨c, r, rfl⟩ := List.exists_cons_of_ne_nil hne
  have hinit : (c :: r).isPrefixOf (c :: (r ++ y)) = true :=
    List.isPrefixOf_iff_prefix.mpr (List.prefix_append (c :: r) y)
  rw [List.cons_append, replaceFrom, if_pos hinit]
  exact congrArg (value ++ ·) (replaceFrom_skip value (c :: r) r y)

theorem replaceFrom_of_absent {s : List Char} (hs : ¬ field <:+: s) :
    replaceFrom field value 0 s = s := by
  induction s with
  | nil => rfl
  | cons c r ih =>
    rw [replaceFrom, if_neg, ih fun h => hs (List.infix_cons h)]
    exact fun h => hs (List.isPrefixOf_iff_prefix.mp h).isInfix

/-- An occurrence does not reach over a character that is not in the field. -/
theorem prefix_of_prefix_append_cons {c : Char} (hc : c ∉ field) {s y : List Char}
    (h : field <+: s ++ c :: y) : field <+: s := by
  have hs : s ++ [c] <+: s ++ c :: y := ⟨y, by simp⟩
  rcases List.prefix_or_prefix_of_prefix h hs with hp | hp
  · rcases List.prefix_concat_iff.mp hp with rfl | hp
    · exact absurd (by simp) hc
    · exact hp
  · exact absurd (hp.subset (by simp)) hc

theorem replaceFrom_append_cons {c : Char} (hc : c ∉ field) {s : List Char}
    (hs : ¬ field <:+: s) (y : List Char) :
    replaceFrom field value 0 (s ++ c :: y) = s ++ c :: replaceFrom field value 0 y := by
  induction s with
  | nil =>
    rw [List.nil_append, List.nil_append, replaceFrom, if_neg]
    intro h
    have hinit := List.isPrefixOf_iff_prefix.mp h
    exact hs (prefix_of_prefix_append_cons hc (s := []) hinit).isInfix
  | cons d r ih =>
    rw [List.cons_append, replaceFrom, if_neg, ih fun h => hs (List.infix_cons h), List.cons_append]
    intro h
    have hinit := List.isPrefixOf_iff_prefix.mp h
    exact hs (prefix_of_prefix_append_cons hc (s := d :: r) hinit).isInfix

theorem replaceFrom_middle {c : Char} (hc : c ∉ field) (hne : field ≠ []) {s y : List Char}
    (hs : ¬ field <:+: s) (hy : ¬ field <:+: y) :
    replaceFrom field value 0 (s ++ c :: (field ++ y)) = s ++ c :: (value ++ y) := by
  rw [replaceFrom_append_cons value hc hs, replaceFrom_field value hne,
    replaceFrom_of_absent value hy]

theorem not_infix_append_cons {c : Char} (hc : c ∉ field) {s y : List Char}
    (hs : ¬ field <:+: s) (hy : ¬ field <:+: y) : ¬ field <:+: s ++ c :: y := by
  induction s with
  | nil =>
    intro h
    rcases List.infix_cons_iff.mp h with h | h
    · exact hs (prefix_of_prefix_append_cons hc (s := []) h).isInfix
    · exact hy h
  | cons d r ih =>
    intro h
    rcases List.infix_cons_iff.mp h with h | h
    · exact hs (prefix_of_prefix_append_cons hc (s := d :: r) h).isInfix
    · exact ih (fun hr => hs (List.infix_cons hr)) h

end Replace

end TemplateHost.Text
