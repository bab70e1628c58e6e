import Mathlib.Data.List.TakeWhile
import TemplateHost.Host.Compilation
import TemplateHost.Proofs.Options.Artifact

/-!
# Expansions of the output pattern

Filled in for a source and a locale, the pattern that the compiler is told leads to where the
generated file is looked for, provided that no field occurs in the texts that are filled in.
-/
namespace TemplateHost.Layout
open TemplateHost.Path Text Compilation

/-- A text in which no field of the output pattern occurs. -/
structure Plain (s : String) : Prop where
  locale : ¬ localeField.toList <:+: s.toList
  directory : ¬ directoryField.toList <:+: s.toList
  name : ¬ nameField.toList <:+: s.toList

theorem Plain.of_infix {s r : String} (hs : Plain s) (hr : r.toList <:+: s.toList) : Plain r :=
  ⟨fun h => hs.locale (h.trans hr), fun h => hs.directory (h.trans hr),
    fun h => hs.name (h.trans hr)⟩

theorem plain_of_no_brace {s : String} (hs : '\x7b' ∉ s.toList) : Plain s :=
  ⟨fun h => hs (h.subset (by decide)), fun h => hs (h.subset (by decide)),
    fun h => hs (h.subset (by decide))⟩

theorem Plain.append_slash {s r : String} (hs : Plain s) (hr : Plain r) :
    Plain (s ++ "/" ++ r) := by
  have heq : (s ++ "/" ++ r).toList = s.toList ++ '/' :: r.toList := by simp
  constructor
  · rw [heq]
    exact not_infix_append_cons (by decide) hs.locale hr.locale
  · rw [heq]
    exact not_infix_append_cons (by decide) hs.directory hr.directory
  · rw [heq]
    exact not_infix_append_cons (by decide) hs.name hr.name

theorem directory_prefix_self (p : String) : (directory p).toList <+: p.toList := by
  have hdrop (f : Char → Bool) (l : List Char) : (l.reverse.dropWhile f).reverse <+: l := by
    have h := List.reverse_prefix.mpr (List.dropWhile_suffix f (l := l.reverse))
    rwa [List.reverse_reverse] at h
  unfold directory
  dsimp only
  split
  · rw [String.toList_ofList]
    exact hdrop _ _
  · rw [String.toList_ofList]
    exact (hdrop _ _).trans (hdrop _ _)

theorem Plain.directory_of {p : String} (hp : Plain p) : Plain (Path.directory p) :=
  hp.of_infix (directory_prefix_self p).isInfix

theorem replaceAll_after_slash {s field y : String} (value : String) (hne : field.toList ≠ [])
    (hslash : '/' ∉ field.toList) (hs : ¬ field.toList <:+: s.toList)
    (hy : ¬ field.toList <:+: y.toList) :
    replaceAll (s ++ "/" ++ (field ++ y)) field value = s ++ "/" ++ (value ++ y) := by
  have hin : (s ++ "/" ++ (field ++ y)).toList =
      s.toList ++ '/' :: (field.toList ++ y.toList) := by simp
  have hout : (s ++ "/" ++ (value ++ y)).toList =
      s.toList ++ '/' :: (value.toList ++ y.toList) := by simp
  rw [replaceAll, hin, replaceFrom_middle _ hslash hne hs hy, ← hout, String.ofList_toList]

theorem replaceAll_of_absent {s field : String} (value : String)
    (hs : ¬ field.toList <:+: s.toList) : replaceAll s field value = s := by
  rw [replaceAll, replaceFrom_of_absent _ hs, String.ofList_toList]

def patternEnd : String := directoryField ++ ("/" ++ (nameField ++ generatedSuffix))

theorem under_relative {p : String} (hp : p ≠ "") (hslash : endsInSlash p = false) {r : String}
    (hr : isAbsolute r = false) : under p r = p ++ "/" ++ r := by
  unfold under
  simp [hp, hslash, hr]

/-- A root without a slash at its end. -/
structure Stem (root stem : String) : Prop where
  eq : root = stem ∨ root = stem ++ "/"
  under (r : String) : isAbsolute r = false → Path.under root r = stem ++ "/" ++ r

theorem exists_stem {root : String} (hroot : isAbsolute root = true) : ∃ stem, Stem root stem := by
  have hne : root ≠ "" := by
    rintro rfl
    cases hroot
  by_cases hslash : endsInSlash root = true
  · obtain ⟨l, hl⟩ := List.getLast?_eq_some_iff.mp (of_decide_eq_true hslash)
    have heq : root = String.ofList l ++ "/" := by
      rw [← String.toList_inj, hl]
      simp
    refine ⟨String.ofList l, Or.inr heq, fun r hr => ?_⟩
    unfold Path.under
    rw [hr, if_neg (by simp), if_pos (Or.inr hslash), ← heq]
  · exact ⟨root, Or.inl rfl, fun r hr => under_relative hne (by simpa using hslash) hr⟩

theorem Stem.isAbsolute {root stem : String} (hstem : Stem root stem)
    (hroot : isAbsolute root = true) (r : String) : isAbsolute (stem ++ "/" ++ r) = true := by
  have hchars : (stem ++ "/" ++ r).toList = stem.toList ++ '/' :: r.toList := by simp
  have hhead : root.toList.head? = some '/' := of_decide_eq_true hroot
  unfold Path.isAbsolute
  rw [hchars]
  cases hs : stem.toList with
  | nil => rfl
  | cons c l =>
    rcases hstem.eq with rfl | rfl
    · rw [hs] at hhead
      simpa using hhead
    · rw [String.toList_append, hs] at hhead
      simpa using hhead

theorem Stem.plain {root stem : String} (hstem : Stem root stem) (hroot : Plain root) :
    Plain stem := by
  rcases hstem.eq with rfl | rfl
  · exact hroot
  · refine hroot.of_infix ?_
    rw [String.toList_append]
    exact (List.prefix_append _ _).isInfix

theorem endsInSlash_append {p s : String} (hs : s.toList ≠ []) :
    endsInSlash (p ++ s) = endsInSlash s := by
  unfold endsInSlash
  rw [String.toList_append, List.getLast?_append, List.getLast?_eq_some_getLast hs]
  rfl

theorem outputPattern_eq {root stem : String} (o : Options) (hstem : Stem root stem) :
    outputPattern o root =
      if o.multipleLocales then stem ++ "/" ++ (localeField ++ ("/" ++ patternEnd))
      else stem ++ "/" ++ patternEnd := by
  have hafter (p field r : String) (hfield : field.toList ≠ []) (hslash : endsInSlash field = false)
      (hr : isAbsolute r = false) :
      under (p ++ "/" ++ field) r = p ++ "/" ++ field ++ "/" ++ r := by
    refine under_relative (fun h => ?_) (by rw [endsInSlash_append hfield, hslash]) hr
    have hempty : (p ++ "/" ++ field).toList = [] := by rw [h]; rfl
    simp at hempty
  unfold outputPattern patternEnd
  dsimp only
  split
  · rw [hstem.under _ (by decide), hafter _ _ _ (by decide) (by decide) (by decide)]
    rw [hafter _ _ _ (by decide) (by decide) (by decide)]
    simp only [String.append_assoc]
  · rw [hstem.under _ (by decide), hafter _ _ _ (by decide) (by decide) (by decide)]
    simp only [String.append_assoc]

theorem replaceAll_patternEnd {s file : String} (hs : Plain s) (hfile : Plain file) :
    replaceAll (replaceAll (s ++ "/" ++ patternEnd) directoryField (directory file)) nameField
      (base file) = s ++ "/" ++ directory file ++ "/" ++ (base file ++ generatedSuffix) := by
  have hdirectory : ¬ directoryField.toList <:+: ("/" ++ (nameField ++ generatedSuffix)).toList :=
    not_infix_of_indexOf? (by decide)
  have hname : ¬ nameField.toList <:+: generatedSuffix.toList :=
    not_infix_of_indexOf? (by decide)
  have hassoc : s ++ "/" ++ (directory file ++ ("/" ++ (nameField ++ generatedSuffix))) =
      s ++ "/" ++ directory file ++ "/" ++ (nameField ++ generatedSuffix) := by
    simp only [String.append_assoc]
  rw [patternEnd, replaceAll_after_slash _ (by decide) (by decide) hs.directory hdirectory, hassoc,
    replaceAll_after_slash _ (by decide) (by decide) (hs.append_slash hfile.directory_of).name
      hname]

/-- The pattern filled in: in the directory of the locale, if there are several, the source's own
directory and name. -/
theorem fillPattern_eq {root stem file : String} {locale : Option String} (o : Options)
    (hstem : Stem root stem) (hroot : Plain root) (hfile : Plain file)
    (hlocale : Plain (locale.getD "")) :
    fillPattern (outputPattern o root) file locale =
      (if o.multipleLocales then stem ++ "/" ++ locale.getD "" else stem) ++ "/" ++
        directory file ++ "/" ++ (base file ++ generatedSuffix) := by
  have hplain := hstem.plain hroot
  unfold fillPattern
  dsimp only
  rw [outputPattern_eq o hstem]
  split
  · rw [replaceAll_after_slash _ (by decide) (by decide) hplain.locale
      (not_infix_of_indexOf? (by decide))]
    have hassoc : stem ++ "/" ++ (locale.getD "" ++ ("/" ++ patternEnd)) =
        stem ++ "/" ++ locale.getD "" ++ "/" ++ patternEnd := by simp only [String.append_assoc]
    rw [hassoc]
    exact replaceAll_patternEnd (hplain.append_slash hlocale) hfile
  · have hnone : ¬ localeField.toList <:+: (stem ++ "/" ++ patternEnd).toList := by
      have heq : (stem ++ "/" ++ patternEnd).toList =
          stem.toList ++ '/' :: patternEnd.toList := by simp
      rw [heq]
      exact not_infix_append_cons (by decide) hplain.locale
        (not_infix_of_indexOf? (by decide))
    rw [replaceAll_of_absent _ hnone]
    exact replaceAll_patternEnd hplain hfile

section Places

theorem foldl_walk_slash (q : Place) (p : String) :
    (steps (p ++ "/")).foldl walk q = (steps p).foldl walk q := by
  have h := steps_append_slash p ""
  rw [String.append_empty] at h
  rw [h, List.foldl_append]
  rfl

theorem foldl_walk_strip (q : Place) (l : List Char) :
    (steps (String.ofList (l.reverse.dropWhile (· = '/')).reverse)).foldl walk q =
      (steps (String.ofList l)).foldl walk q := by
  induction l using List.reverseRecOn with
  | nil => rfl
  | append_singleton l c ih =>
    rw [List.reverse_append, List.reverse_singleton, List.singleton_append]
    by_cases hc : c = '/'
    · have hslash : String.ofList (l ++ [c]) = String.ofList l ++ "/" := by
        rw [hc, ← String.toList_inj]
        simp
      rw [List.dropWhile_cons_of_pos (by simpa using hc), ih, hslash, foldl_walk_slash]
    · rw [List.dropWhile_cons_of_neg (by simpa using hc), List.reverse_cons, List.reverse_reverse]

theorem base_no_slash (p : String) : '/' ∉ (base p).toList := by
  unfold base baseChars
  rw [String.toList_ofList, List.mem_reverse]
  intro h
  simpa using List.mem_takeWhile_imp h

theorem eq_base_or (p : String) : p = base p ∨ ∃ x, p = x ++ "/" ++ base p := by
  have hsplit : p.toList.reverse.takeWhile (· ≠ '/') ++ p.toList.reverse.dropWhile (· ≠ '/') =
      p.toList.reverse := List.takeWhile_append_dropWhile
  cases hd : p.toList.reverse.dropWhile (· ≠ '/') with
  | nil =>
    left
    rw [hd, List.append_nil] at hsplit
    rw [base, baseChars, hsplit, List.reverse_reverse, String.ofList_toList]
  | cons c r =>
    right
    have hc : c = '/' := by
      have h := List.head?_dropWhile_not (· ≠ '/') p.toList.reverse
      rw [hd] at h
      simpa using h
    refine ⟨String.ofList r.reverse, ?_⟩
    have hchars : p.toList = r.reverse ++ '/' :: baseChars p.toList := by
      rw [hd, hc] at hsplit
      unfold baseChars
      generalize p.toList.reverse.takeWhile (· ≠ '/') = name at hsplit ⊢
      rw [← List.reverse_inj, ← hsplit]
      simp
    rw [← String.toList_inj]
    simpa [base] using hchars

theorem foldl_walk_steps {p : String} (hp : IsName (base p)) (q : Place) :
    (steps p).foldl walk q = (steps (directory p)).foldl walk q ++ [base p] := by
  have hname : steps (base p) = [base p] := steps_of_no_slash (base_no_slash p)
  rcases eq_base_or p with heq | ⟨x, heq⟩
  · have hdir : directory p = "" := by
      have hall : p.toList.reverse.dropWhile (· ≠ '/') = [] := by
        rw [List.dropWhile_eq_nil_iff]
        intro c hc
        have hslash := base_no_slash p
        rw [← heq] at hslash
        simp only [decide_eq_true_eq]
        rintro rfl
        exact hslash (List.mem_reverse.mp hc)
      unfold directory
      rw [hall]
      rfl
    rw [hdir, ← hp.walk]
    conv_lhs => rw [heq, hname]
    rfl
  · have hdir := directory_eq x (base p) (base_no_slash p)
    rw [← heq] at hdir
    have hfold : (steps (directory p)).foldl walk q = (steps x).foldl walk q := by
      rw [hdir]
      split
      · exact foldl_walk_slash q x
      · rw [foldl_walk_strip, String.ofList_toList]
    rw [hfold, ← hp.walk]
    conv_lhs => rw [heq, steps_append_slash, hname, List.foldl_append]
    rfl

theorem foldl_walk_nest (q : Place) (parts : List String) :
    (steps (join "/" (parts.filter (· ≠ "")))).foldl walk q =
      (parts.flatMap steps).foldl walk q := by
  induction parts generalizing q with
  | nil => rfl
  | cons p r ih =>
    rw [List.flatMap_cons, List.foldl_append, ← ih]
    by_cases hp : p = ""
    · subst p
      rfl
    · rw [List.filter_cons_of_pos (by simpa using hp)]
      by_cases hr : r.filter (· ≠ "") = []
      · rw [hr]
        change _ = ((steps p).foldl walk q)
        rw [join, String.intercalate_singleton]
      · rw [join, String.intercalate_cons_of_ne_nil hr, steps_append_slash, List.foldl_append]
        rfl

theorem place_nil (p : String) : place [] p = (steps p).foldl walk [] := by
  unfold place
  rw [ite_self]

theorem place_normalize_suffix {p suffix : String} {ns : Place} {a : String}
    (hplace : place [] p = ns ++ [a]) (hs : 2 < suffix.length) (hslash : '/' ∉ suffix.toList)
    (cwd : Place) :
    ∃ q, place cwd p = q ++ [a] ∧ place cwd (normalize p ++ suffix) = q ++ [a ++ suffix] := by
  rw [← place_normalize] at hplace
  rcases normalize_cases p with ⟨-, hdot, -⟩ | ⟨k, ms, hdirect, -⟩
  · have hhere : place [] "." = [] := by decide
    rw [hdot, hhere] at hplace
    exact absurd hplace.symm (by simp)
  · -- Seen from the root the steps up lead nowhere, so the names are those after them.
    obtain rfl : ms = ns ++ [a] := by
      rw [hdirect.place] at hplace
      simpa using hplace
    rw [← place_normalize cwd p, hdirect.place, (hdirect.append_suffix hs hslash).place,
      ← List.append_assoc, ← List.append_assoc]
    exact ⟨_, rfl, rfl⟩

theorem place_normalize_append {p suffix : String} {ns : Place} {a : String}
    (hplace : place [] p = ns ++ [a]) (hs : 2 < suffix.length) (hslash : '/' ∉ suffix.toList) :
    place [] (normalize p ++ suffix) = ns ++ [a ++ suffix] := by
  obtain ⟨q, hq, hsuffix⟩ := place_normalize_suffix hplace hs hslash []
  rw [hsuffix, ← (List.append_inj' (hplace.symm.trans hq) rfl).1]

variable {root file : String}

def artifactDirectory (o : Options) (root file locale : String) : Place :=
  (steps root ++ (if o.multipleLocales then steps locale else []) ++
    steps (directory file)).foldl walk []

theorem artifactPlace_eq (hbase : IsName (base file)) (o : Options) (locale : String) :
    artifactPlace o root file locale =
      artifactDirectory o root file (localeOrDefault (some locale)) ++
        [base file ++ generatedSuffix] := by
  unfold artifactPlace
  rw [outputFile_eq]
  refine place_normalize_append ?_ (by decide) (by decide)
  rw [place_nil, foldl_walk_nest]
  unfold artifactDirectory
  split
  · simp [List.foldl_append, foldl_walk_steps hbase]
  · simp [List.foldl_append, foldl_walk_steps hbase]

theorem localeOrDefault_idem (locale : Option String) :
    localeOrDefault (some (localeOrDefault locale)) = localeOrDefault locale := by
  cases locale with
  | none => rfl
  | some l =>
    by_cases hl : l = ""
    · simp [localeOrDefault, hl, Options.defaultLocale]
    · simp [localeOrDefault, hl]

/-- **The pattern and the layout agree.** -/
theorem place_fillPattern (hroot : isAbsolute root = true) (hplain : Plain root)
    (hbase : IsName (base file)) (hfile : Plain file) (o : Options) {locale : Option String}
    (hlocale : Plain (locale.getD ""))
    (hname : o.multipleLocales = true → locale.getD "" = localeOrDefault locale) :
    isAbsolute (fillPattern (outputPattern o root) file locale) = true ∧
      place [] (fillPattern (outputPattern o root) file locale) =
        artifactPlace o root file (localeOrDefault locale) := by
  obtain ⟨stem, hstem⟩ := exists_stem hroot
  have hsteps : (steps stem).foldl walk [] = (steps root).foldl walk [] := by
    rcases hstem.eq with rfl | rfl
    · rfl
    · exact (foldl_walk_slash [] stem).symm
  have hlast : steps (base file ++ generatedSuffix) = [base file ++ generatedSuffix] := by
    refine steps_of_no_slash ?_
    rw [String.toList_append, List.mem_append]
    rintro (h | h)
    · exact base_no_slash file h
    · exact absurd h (by decide)
  have hsuffixed : IsName (base file ++ generatedSuffix) :=
    isName_append (base_no_slash file) (by decide) (by decide)
  have hdefault := localeOrDefault_idem locale
  rw [fillPattern_eq o hstem hplain hfile hlocale]
  constructor
  · split
    · simp only [String.append_assoc]
      rw [← String.append_assoc]
      exact hstem.isAbsolute hroot _
    · simp only [String.append_assoc]
      rw [← String.append_assoc]
      exact hstem.isAbsolute hroot _
  · rw [artifactPlace_eq hbase, place_nil, steps_append_slash, steps_append_slash, hlast,
      List.foldl_append, List.foldl_append, List.foldl_cons, List.foldl_nil, hsuffixed.walk,
      hdefault]
    unfold artifactDirectory
    by_cases hmany : o.multipleLocales = true
    · rw [if_pos hmany, if_pos hmany, steps_append_slash, hname hmany]
      simp only [List.foldl_append, hsteps]
    · rw [if_neg hmany, if_neg hmany, List.append_nil, List.foldl_append, hsteps]

def requested (o : Options) (target : String) : Option String :=
  if o.flag .locales then some target else none

theorem flag_locales_of_multiple {o : Options} (h : o.multipleLocales = true) :
    o.flag .locales = true := by
  have hlen : 1 < (o.texts .locales).length := of_decide_eq_true h
  unfold Options.texts at hlen
  unfold Options.flag
  cases ho : o .locales with
  | list items =>
    rw [ho] at hlen
    have hitems : items ≠ [] := by
      rintro rfl
      exact absurd hlen (by decide)
    simpa [Setting.isTrue] using hitems
  | tuple items =>
    rw [ho] at hlen
    have hitems : items ≠ [] := by
      rintro rfl
      exact absurd hlen (by decide)
    simpa [Setting.isTrue] using hitems
  | text s =>
    rw [ho] at hlen
    have hs : s ≠ "" := by
      rintro rfl
      exact absurd hlen (by decide)
    simpa [Setting.isTrue] using hs
  | null => rw [ho] at hlen; exact absurd hlen (by decide)
  | flag b => rw [ho] at hlen; exact absurd hlen (Nat.not_lt_zero 1)
  | number n => rw [ho] at hlen; exact absurd hlen (Nat.not_lt_zero 1)
  | other truth literal => rw [ho] at hlen; exact absurd hlen (Nat.not_lt_zero 1)

theorem localeOrDefault_requested {o : Options} {l : String} (hl : l ∈ o.targets) (hne : l ≠ "") :
    localeOrDefault (requested o l) = l := by
  unfold requested
  by_cases hflag : o.flag .locales = true
  · simp [hflag, localeOrDefault, hne]
  · unfold Options.targets Options.vmTypes at hl
    rw [if_neg hflag] at hl
    rw [if_neg hflag, List.mem_singleton.mp hl]
    rfl

/-- The texts with which the pattern is filled in contain no field, and sources have names. -/
structure Fillable (o : Options) (root : String) (files : List String) : Prop where
  absolute : isAbsolute root = true
  root : Plain root
  name (f : String) : f ∈ files → IsName (base f)
  file (f : String) : f ∈ files → Plain f
  locale (l : String) : l ∈ o.targets → Plain l ∧ l ≠ ""

theorem Fillable.straight {o : Options} {files : List String} (hf : Fillable o root files)
    {f l : String} (hfile : f ∈ files) (hl : l ∈ o.targets) (cwd : String) :
    Straight (normalize (under cwd (fillPattern (outputPattern o root) f (requested o l))))
      (artifactPlace o root f l) := by
  obtain ⟨hplain, hne⟩ := hf.locale l hl
  have hdefault := localeOrDefault_requested hl hne
  have hrequested : Plain ((requested o l).getD "") := by
    unfold requested
    split
    · exact hplain
    · exact plain_of_no_brace (by decide)
  obtain ⟨habs, hplace⟩ := place_fillPattern hf.absolute hf.root (hf.name f hfile)
    (hf.file f hfile) o hrequested fun hmany => by
      rw [hdefault, requested, if_pos (flag_locales_of_multiple hmany)]
      rfl
  have hunder : under cwd (fillPattern (outputPattern o root) f (requested o l)) =
      fillPattern (outputPattern o root) f (requested o l) := by
    unfold under
    rw [if_pos habs]
  rw [hunder, ← hdefault, ← hplace, hdefault]
  exact straight_normalize habs

end Places

section Text

/-- **Where output is looked for is where the compiler is told to write it**, as texts. -/
theorem normalize_fillPattern {o : Options} {root file locale : String}
    (hroot : isAbsolute root = true) (hslash : endsInSlash root = false) (hplain : Plain root)
    (hempty : base file ≠ "") (hdot : base file ≠ ".") (hdots : base file ≠ "..")
    (hfile : Plain file) (hlocale : Plain locale)
    (hname : o.multipleLocales = true → locale ≠ "") :
    normalize (fillPattern (outputPattern o root) file (some locale)) =
      outputFile o root file (some locale) := by
  have hbase : IsName (base file) := ⟨hempty, hdot, hdots, base_no_slash file⟩
  have hne : root ≠ "" := by
    rintro rfl
    cases hroot
  have hstem : Stem root root := ⟨Or.inl rfl, fun r hr => under_relative hne hslash hr⟩
  have hdefault (hmany : o.multipleLocales = true) :
      (some locale).getD "" = localeOrDefault (some locale) := by
    simp [localeOrDefault, hname hmany]
  have hfilled : Plain ((some locale).getD "") := hlocale
  obtain ⟨habs, hplace⟩ := place_fillPattern hroot hplain hbase hfile o hfilled hdefault
  -- Both texts start as the root does.
  obtain ⟨x, hx⟩ : ∃ x, fillPattern (outputPattern o root) file (some locale) = root ++ x := by
    rw [fillPattern_eq o hstem hplain hfile hfilled]
    split
    · exact ⟨_, by simp only [String.append_assoc]; rfl⟩
    · exact ⟨_, by simp only [String.append_assoc]; rfl⟩
  obtain ⟨y, hy⟩ := exists_join_append hne
    (if o.multipleLocales then [localeOrDefault (some locale), file] else [file])
  obtain ⟨m, ms, hout, -⟩ := exists_direct_suffix (join "/" ((root ::
    if o.multipleLocales then [localeOrDefault (some locale), file] else [file]).filter (· ≠ "")))
    generatedSuffix (by decide) (by decide)
  obtain ⟨k, ns, hin⟩ := direct_normalize habs
  rw [hx, root_append hroot hslash, ← hx] at hin
  rw [hy, root_append hroot hslash, ← hy] at hout
  rw [outputFile_eq]
  refine hin.eq_of_place hout ((isAbsolute_iff_root root).mp hroot) ?_
  rw [place_normalize, hplace, artifactPlace, outputFile_eq, localeOrDefault_idem]

/-- Two locales, for a source that climbs out of the directory of its own. -/
theorem normalize_fillPattern_climbing :
    normalize (fillPattern (outputPattern
        ((Options.initial ⟨"/", "/tmp", "/run", none⟩).set .locales
          (.tuple [.text "es", .text "pt"])) "/out") "a/../..//b/c.soy" (some "pt")) =
      "/out/b/c.soy.py" := by
  have hplain {s : String} (hs : '\x7b' ∉ s.toList) : Plain s := plain_of_no_brace hs
  refine (normalize_fillPattern (by decide) (by decide) (hplain (by decide)) (by decide) (by decide)
    (by decide) (hplain (by decide)) (hplain (by decide)) fun _ => by decide).trans ?_
  decide

end Text

end TemplateHost.Layout
