import TemplateHost.Proofs.Options.Spelling

/-!
# Generated files lie apart

The generated file of a source that does not climb lies below the output root, by the components of
the source's path. So two sources share a file only if they have the same components, and only for
the same locale if there are several. Joined files are apart from each other and from the generated
files of template sources: their names end differently.
-/
namespace TemplateHost
open TemplateHost.Path Text

namespace Path
variable {p : String}

def components (p : String) : List String := (steps p).filter fun s => s ≠ "" ∧ s ≠ "."

/-- A path that names something and does not climb. -/
structure Descending (p : String) : Prop where
  stays : ".." ∉ components p
  leads : components p ≠ []

theorem Descending.isName (hp : Descending p) : ∀ n ∈ components p, IsName n := by
  intro n hn
  obtain ⟨hstep, hkept⟩ := List.mem_filter.mp hn
  have hsome : n ≠ "" ∧ n ≠ "." := by simpa using hkept
  refine ⟨hsome.1, hsome.2, ?_, no_slash_of_mem_steps hstep⟩
  rintro rfl
  exact hp.stays hn

theorem Descending.exists_last (hp : Descending p) : ∃ ns a, components p = ns ++ [a] :=
  ⟨_, _, (List.dropLast_concat_getLast hp.leads).symm⟩

theorem foldl_walk_components (q : Place) (p : String) :
    (steps p).foldl walk q = (components p).foldl walk q := by
  unfold components
  induction steps p generalizing q with
  | nil => rfl
  | cons s ss ih =>
    rw [List.foldl_cons, ih]
    by_cases hs : s = "" ∨ s = "."
    · rw [List.filter_cons_of_neg (by simpa [or_iff_not_imp_left] using hs), walk, if_pos hs]
    · rw [List.filter_cons_of_pos (by simpa [not_or] using hs), List.foldl_cons]

theorem Descending.foldl_walk (hp : Descending p) (q : Place) :
    (steps p).foldl walk q = q ++ components p := by
  rw [foldl_walk_components, foldl_walk_names q hp.isName]

def Below (dir p : String) : Prop :=
  ∃ ns, ns ≠ [] ∧ (∀ n ∈ ns, IsName n) ∧ p = dir ++ "/" ++ join "/" ns

theorem join_append_join {ns ms : List String} (hn : ns ≠ []) (hm : ms ≠ []) :
    join "/" (ns ++ ms) = join "/" ns ++ "/" ++ join "/" ms :=
  String.intercalate_append_of_ne_nil hn hm

theorem Straight.append {ns ms : List String} (hp : Straight p ns) (hn : ns ≠ []) (hm : ms ≠ [])
    (hms : ∀ n ∈ ms, IsName n) : Straight (p ++ "/" ++ join "/" ms) (ns ++ ms) := by
  have hall : ∀ n ∈ ns ++ ms, IsName n := List.forall_mem_append.mpr ⟨hp.eq.2, hms⟩
  rcases hp.eq.1 with rfl | rfl
  · refine .of_eq (Or.inl rfl) ?_ hall
    rw [join_append_join hn hm]
    simp only [String.append_assoc]
  · refine .of_eq (Or.inr rfl) ?_ hall
    rw [join_append_join hn hm]
    simp only [String.append_assoc]

end Path

namespace Layout
variable {o : Options} {dir f g : String} {l m : Option String}

/-- A directory in normal form that is not the topmost one. -/
structure Grounded (dir : String) : Prop where
  absolute : isAbsolute dir = true
  normal : normalize dir = dir
  ne_slash : dir ≠ "/"
  ne_slashes : dir ≠ "//"

theorem Grounded.straight (hdir : Grounded dir) :
    Straight dir (place [] dir) ∧ place [] dir ≠ [] := by
  have hs := straight_normalize hdir.absolute
  rw [hdir.normal] at hs
  refine ⟨hs, fun hnil => ?_⟩
  rw [hnil] at hs
  rcases hs.eq.1 with heq | heq
  · exact hdir.ne_slash heq
  · exact hdir.ne_slashes heq

theorem exists_place_append (cwd : Place) (x : String) {suffix : String} (hs : 2 < suffix.length)
    (hslash : '/' ∉ suffix.toList) : ∃ q, place cwd (x ++ suffix) = q ++ [base x ++ suffix] := by
  have hname : IsName (base x ++ suffix) := isName_append (base_no_slash x) hs hslash
  have hstep : steps (base x ++ suffix) = [base x ++ suffix] := steps_of_no_slash hname.no_slash
  have hlast : ∃ ss, steps (x ++ suffix) = ss ++ [base x ++ suffix] := by
    rcases eq_base_or x with heq | ⟨y, heq⟩
    · exact ⟨[], by rw [List.nil_append, ← hstep, ← heq]⟩
    · refine ⟨steps y, ?_⟩
      have hsplit : x ++ suffix = y ++ "/" ++ (base x ++ suffix) := by
        rw [← String.append_assoc, ← heq]
      rw [hsplit, steps_append_slash, hstep]
  obtain ⟨ss, hss⟩ := hlast
  unfold place
  rw [hss, List.foldl_append]
  exact ⟨_, hname.walk _⟩

theorem base_append {x n : String} (hn : '/' ∉ n.toList) : base (x ++ n) = base x ++ n := by
  have hrev : ∀ c ∈ n.toList.reverse, decide (c ≠ '/') = true := by
    intro c hc
    rw [decide_eq_true_eq]
    rintro rfl
    exact hn (List.mem_reverse.mp hc)
  rw [← String.toList_inj]
  unfold base baseChars
  rw [String.toList_append, List.reverse_append, List.takeWhile_append_of_pos hrev]
  simp

/-- The directories between the output root and the generated files of a locale. -/
def localeSteps (o : Options) (locale : Option String) : List String :=
  if o.multipleLocales then [localeOrDefault locale] else []

/-- A locale that can be the name of a directory. -/
def Nameable (o : Options) (locale : Option String) : Prop :=
  o.multipleLocales = true → ∀ x ∈ locale, IsName x

theorem localeOrDefault_of_isName {x : String} (hx : IsName x) :
    localeOrDefault (some x) = x := if_neg hx.ne_empty

theorem Nameable.isName (hl : Nameable o l) : ∀ n ∈ localeSteps o l, IsName n := by
  unfold localeSteps
  intro n hn
  split at hn
  · next hmany =>
    obtain rfl := List.mem_singleton.mp hn
    cases l with
    | none => decide
    | some x =>
      have hx := hl hmany x rfl
      rwa [localeOrDefault_of_isName hx]
  · cases hn

theorem localeSteps_inj : localeSteps o l = localeSteps o m ↔
    (o.multipleLocales = true → localeOrDefault l = localeOrDefault m) := by
  unfold localeSteps
  split
  · next hmany => simp [hmany]
  · next hone => simp [hone]

theorem length_localeSteps (o : Options) (l m : Option String) :
    (localeSteps o l).length = (localeSteps o m).length := by
  unfold localeSteps
  split
  · rfl
  · rfl

theorem foldl_walk_segments (hf : Descending f) (hl : Nameable o l) (q : Place) :
    ((segments o f l).flatMap steps).foldl walk q = q ++ localeSteps o l ++ components f := by
  have hlocale := hl.isName
  unfold segments
  unfold localeSteps at hlocale ⊢
  split
  · next hmany =>
    have hname : IsName (localeOrDefault l) := by simpa [hmany] using hlocale
    simp [steps_of_no_slash hname.no_slash, hname.walk, hf.foldl_walk]
  · simp [hf.foldl_walk]

theorem isName_generated (hf : Descending f) (hl : Nameable o l) {ns : List String} {a : String}
    (hlast : components f = ns ++ [a]) :
    ∀ n ∈ localeSteps o l ++ ns ++ [a ++ generatedSuffix], IsName n := by
  have hcomponents := hf.isName
  rw [hlast] at hcomponents
  obtain ⟨hns, ha⟩ := List.forall_mem_append.mp hcomponents
  refine List.forall_mem_append.mpr ⟨List.forall_mem_append.mpr ⟨hl.isName, hns⟩, ?_⟩
  simpa using isName_append (ha a (by simp)).no_slash (by decide) (by decide)

theorem outputFile_of_components (hdir : Grounded dir) (hf : Descending f) (hl : Nameable o l)
    {ns : List String} {a : String} (hlast : components f = ns ++ [a]) :
    outputFile o dir f l =
      dir ++ "/" ++ join "/" (localeSteps o l ++ ns ++ [a ++ generatedSuffix]) := by
  obtain ⟨hs, hne⟩ := hdir.straight
  have hdirne := ne_empty_of_isAbsolute hdir.absolute
  have hplace : place [] (join "/" ((dir :: segments o f l).filter (· ≠ ""))) =
      place [] dir ++ localeSteps o l ++ ns ++ [a] := by
    rw [place_nest hdirne, foldl_walk_segments hf hl, hlast]
    simp only [List.append_assoc]
  -- Both texts lead from one topmost directory to one place.
  have hstraight := hs.append hne (by simp) (isName_generated hf hl hlast)
  have hgoal := hstraight.place []
  obtain ⟨lead, hlead, hright⟩ := hstraight
  have hroot := hright.root
  rw [String.append_assoc, root_append_of_exists (exists_ne_slash hne)] at hroot
  obtain ⟨k, ms, hleft, -⟩ := exists_direct_suffix
    (join "/" ((dir :: segments o f l).filter (· ≠ ""))) generatedSuffix (by decide) (by decide)
  obtain ⟨x, hx⟩ := exists_join_append hdirne (segments o f l)
  rw [hx, root_append_of_exists (exists_ne_slash hne), ← hx, hroot] at hleft
  rw [outputFile_eq]
  refine hleft.eq_of_place hright (by rcases hlead with rfl | rfl <;> decide) ?_
  rw [place_normalize_append hplace (by decide) (by decide), hgoal]
  simp only [List.append_assoc]

theorem place_outputFile_of_components (hdir : Grounded dir) (hf : Descending f)
    (hl : Nameable o l) {ns : List String} {a : String} (hlast : components f = ns ++ [a])
    (cwd : Place) : place cwd (outputFile o dir f l) =
      place [] dir ++ (localeSteps o l ++ ns ++ [a ++ generatedSuffix]) := by
  obtain ⟨hs, hne⟩ := hdir.straight
  rw [outputFile_of_components hdir hf hl hlast]
  exact (hs.append hne (by simp) (isName_generated hf hl hlast)).place cwd

theorem outputFile_below_root (hdir : Grounded dir) (hf : Descending f) (hl : Nameable o l) :
    Below dir (outputFile o dir f l) := by
  obtain ⟨ns, a, hlast⟩ := hf.exists_last
  exact ⟨_, by simp, isName_generated hf hl hlast, outputFile_of_components hdir hf hl hlast⟩

/-- Different components or locales make different files. -/
theorem outputFile_inj (hdir : Grounded dir) (hf : Descending f) (hg : Descending g)
    (hl : Nameable o l) (hm : Nameable o m) :
    outputFile o dir f l = outputFile o dir g m ↔ components f = components g ∧
      (o.multipleLocales = true → localeOrDefault l = localeOrDefault m) := by
  obtain ⟨ns, a, hlast⟩ := hf.exists_last
  obtain ⟨ms, b, hlast'⟩ := hg.exists_last
  rw [← localeSteps_inj, hlast, hlast']
  constructor
  · intro heq
    have hplace := place_outputFile_of_components hdir hf hl hlast []
    rw [heq, place_outputFile_of_components hdir hg hm hlast' [], List.append_cancel_left_eq]
      at hplace
    obtain ⟨hinit, hsame⟩ := List.append_inj' hplace.symm rfl
    obtain ⟨hlocale, hns⟩ := List.append_inj hinit (length_localeSteps o l m)
    have ha : a = b := (String.append_left_inj _).mp (List.singleton_inj.mp hsame)
    exact ⟨by rw [hns, ha], hlocale⟩
  · rintro ⟨hsame, hlocale⟩
    obtain ⟨hns, ha⟩ := List.append_inj' hsame rfl
    rw [outputFile_of_components hdir hf hl hlast, outputFile_of_components hdir hg hm hlast',
      hlocale, hns, List.singleton_inj.mp ha]

/-- The name of a joined file, of which the locale is a part if there are several. -/
def joinedName (o : Options) (locale : Option String) : String :=
  o.text .concatFileName ++ if o.multipleLocales then "_" ++ localeOrDefault locale else ""

theorem exists_place_concatFile (o : Options) (dir : String) (l : Option String) (cwd : Place) :
    ∃ q, place cwd (concatFile o dir l) = q ++ [base (joinedName o l) ++ concatSuffix] := by
  have hname : concatFile o dir l = under dir (joinedName o l ++ concatSuffix) := by
    unfold concatFile joinedName
    split
    · simp only [String.append_assoc]
    · rw [String.append_empty]
  rw [hname, place_under]
  exact exists_place_append _ _ (by decide) (by decide)

theorem place_concatFile_ne {j k : String} (hmany : o.multipleLocales = true) (hj : IsName j)
    (hk : IsName k) (hne : j ≠ k) (cwd : Place) :
    place cwd (concatFile o dir (some j)) ≠ place cwd (concatFile o dir (some k)) := by
  have hbase {x : String} (hx : IsName x) : base (joinedName o (some x)) =
      base (o.text .concatFileName ++ "_") ++ x := by
    rw [joinedName, if_pos hmany, localeOrDefault_of_isName hx, ← String.append_assoc]
    exact base_append hx.no_slash
  intro heq
  obtain ⟨p, hp⟩ := exists_place_concatFile o dir (some j) cwd
  obtain ⟨q, hq⟩ := exists_place_concatFile o dir (some k) cwd
  rw [hp, hq, hbase hj, hbase hk] at heq
  obtain ⟨-, hlast⟩ := List.append_inj' heq (by simp)
  have hnames := (String.append_left_inj _).mp (List.singleton_inj.mp hlast)
  exact hne ((String.append_right_inj _).mp hnames)

theorem soy_ne_concat (x y : String) : x ++ ".soy" ++ generatedSuffix ≠ y ++ concatSuffix := by
  intro heq
  have hleft : ".soy.py".toList <:+ (x ++ ".soy" ++ generatedSuffix).toList :=
    ⟨x.toList, by simp [generatedSuffix]⟩
  have hright : "ncat.py".toList <:+ (y ++ concatSuffix).toList :=
    ⟨y.toList ++ ".soy.co".toList, by simp [concatSuffix]⟩
  rw [heq] at hleft
  have hsuffix := List.suffix_of_suffix_length_le hleft hright (by decide)
  exact absurd (hsuffix.eq_of_length (by decide)) (by decide)

theorem place_outputFile_ne_concatFile (hdir : Grounded dir) (hf : Descending f)
    (hl : Nameable o l) {ns : List String} {x : String} (hlast : components f = ns ++ [x ++ ".soy"])
    (k : Option String) (cwd : Place) :
    place cwd (outputFile o dir f l) ≠ place cwd (concatFile o dir k) := by
  intro heq
  obtain ⟨q, hq⟩ := exists_place_concatFile o dir k cwd
  rw [place_outputFile_of_components hdir hf hl hlast, hq, ← List.append_assoc] at heq
  obtain ⟨-, hsame⟩ := List.append_inj' heq (by simp)
  exact soy_ne_concat x _ (List.singleton_inj.mp hsame)

theorem multipleLocales_of_ne {j k : String} (hj : j ∈ o.texts .locales)
    (hk : k ∈ o.texts .locales) (hne : j ≠ k) : o.multipleLocales = true := by
  have hboth : [j, k].Subperm (o.texts .locales) :=
    List.subperm_of_subset (by simpa using hne) (by simp [hj, hk])
  exact decide_eq_true hboth.length_le

/-- **Output is contained and free of collisions.** Generated files lie below the root, two of them
are one file only for the same components and the same locale, the joined files of two locales are
apart, and the generated file of a template source is never a joined file. -/
theorem output_apart (hdir : Grounded dir) (hf : Descending f) (hg : Descending g)
    (hl : Nameable o l) (hm : Nameable o m) :
    Below dir (outputFile o dir f l) ∧
    (outputFile o dir f l = outputFile o dir g m ↔ components f = components g ∧
      (o.multipleLocales = true → localeOrDefault l = localeOrDefault m)) ∧
    (∀ j ∈ o.texts .locales, ∀ k ∈ o.texts .locales, IsName j → IsName k → j ≠ k → ∀ cwd,
      place cwd (concatFile o dir (some j)) ≠ place cwd (concatFile o dir (some k))) ∧
    ∀ ns x, components f = ns ++ [x ++ ".soy"] → ∀ k cwd,
      place cwd (outputFile o dir f l) ≠ place cwd (concatFile o dir k) := by
  refine ⟨outputFile_below_root hdir hf hl, outputFile_inj hdir hf hg hl hm, ?_, ?_⟩
  · intro j hj k hk hjname hkname hne
    exact place_concatFile_ne (multipleLocales_of_ne hj hk hne) hjname hkname hne
  · intro ns x hlast
    exact place_outputFile_ne_concatFile hdir hf hl hlast

/-- Two locales and two spellings of one absolute source, below a root with two slashes. -/
theorem output_apart_respelled :
    let o := (Options.initial ⟨"/", "/tmp", "/run", none⟩).set .locales
      (.tuple [.text "es", .text "pt"])
    Below "//srv/out" (outputFile o "//srv/out" "/views/./a.soy" (some "es")) ∧
      outputFile o "//srv/out" "/views/./a.soy" (some "es") =
        outputFile o "//srv/out" "views//a.soy/" (some "es") ∧
      outputFile o "//srv/out" "/views/./a.soy" (some "es") ≠
        outputFile o "//srv/out" "views//a.soy/" (some "pt") ∧
      place [] (concatFile o "//srv/out" (some "es")) ≠
        place [] (concatFile o "//srv/out" (some "pt")) ∧
      place [] (outputFile o "//srv/out" "/views/./a.soy" (some "es")) ≠
        place [] (concatFile o "//srv/out" (some "pt")) := by
  intro o
  have hdir : Grounded "//srv/out" := ⟨by decide, by decide, by decide, by decide⟩
  have hf : Descending "/views/./a.soy" := ⟨by decide, by decide⟩
  have hg : Descending "views//a.soy/" := ⟨by decide, by decide⟩
  have hes : Nameable o (some "es") := fun _ x hx => by
    obtain rfl : "es" = x := Option.some.inj hx
    decide
  have hpt : Nameable o (some "pt") := fun _ x hx => by
    obtain rfl : "pt" = x := Option.some.inj hx
    decide
  have hmany : o.multipleLocales = true := by decide
  have hdistinct : localeOrDefault (some "es") ≠ localeOrDefault (some "pt") := by decide
  have hrespelled : components "/views/./a.soy" = components "views//a.soy/" := by decide
  have hsource : components "/views/./a.soy" = ["views"] ++ ["a" ++ ".soy"] := by decide
  have hmem : "es" ∈ o.texts .locales ∧ "pt" ∈ o.texts .locales := by decide
  have hnames : IsName "es" ∧ IsName "pt" ∧ "es" ≠ "pt" := by decide
  obtain ⟨hbelow, hsame, hjoined, hsoy⟩ := output_apart hdir hf hg hes hes
  obtain ⟨-, hother, -⟩ := output_apart hdir hf hg hes hpt
  refine ⟨hbelow, ?_, ?_, ?_, ?_⟩
  · exact hsame.mpr ⟨hrespelled, fun _ => rfl⟩
  · exact fun heq => hdistinct ((hother.mp heq).2 hmany)
  · exact hjoined "es" hmem.1 "pt" hmem.2 hnames.1 hnames.2.1 hnames.2.2 []
  · exact hsoy ["views"] "a" hsource (some "pt") []

end Layout

end TemplateHost
