import TemplateHost.Proofs.Host.Incremental
import TemplateHost.Proofs.Host.Localization
import TemplateHost.Proofs.Host.Output
import TemplateHost.Proofs.Options.Spelling

/-!
# Reading what was compiled

A search of the output root finds the generated file of every source that a search of the input
directory has found, and nothing else: no directory on the way to one, and no joined file.
-/
namespace TemplateHost
open FileTree Layout TemplateHost.Path Text

theorem Path.Straight.under {b n : String} {ns : Place} (hb : Straight b ns) (hn : IsName n) :
    Straight (under b n) (ns ++ [n]) := by
  obtain ⟨heq, hns⟩ := hb.eq
  have hnames : ∀ m ∈ ns ++ [n], IsName m :=
    List.forall_mem_append.mpr ⟨hns, List.forall_mem_singleton.mpr hn⟩
  have habs := hn.isAbsolute
  obtain ⟨lead, hl, heq⟩ : ∃ lead, (lead = "/" ∨ lead = "//") ∧ b = lead ++ join "/" ns := by
    rcases heq with heq | heq
    · exact ⟨"/", Or.inl rfl, heq⟩
    · exact ⟨"//", Or.inr rfl, heq⟩
  refine .of_eq hl ?_ hnames
  unfold Path.under
  rw [if_neg (by simp [habs])]
  by_cases hnil : ns = []
  · subst ns
    have hone : join "/" ([] ++ [n]) = n := String.intercalate_singleton ..
    have hb' : b = lead := by
      rw [heq]
      exact String.append_empty
    have hslash : Path.endsInSlash b = true := by
      rw [hb']
      rcases hl with rfl | rfl <;> decide
    rw [if_pos (Or.inr hslash), hone, hb']
  · have hslash : Path.endsInSlash b = false := by
      rw [← List.dropLast_concat_getLast hnil] at hb
      exact hb.endsInSlash
    have hne := ne_empty_of_isAbsolute hb.isAbsolute
    rw [if_neg (by simp [hne, hslash]), heq, join, join,
      String.intercalate_append_of_ne_nil hnil (by simp), String.intercalate_singleton]
    simp only [String.append_assoc]

namespace Layout
variable {o : Options} {root : String} {ns ms : List String} {a b : String}

theorem multipleLocales_of_singleton {l : String} (ho : o.targets = [l]) :
    o.multipleLocales = false := by
  rw [Bool.eq_false_iff]
  intro hmany
  have hflag := flag_locales_of_multiple hmany
  have hlen : 1 < (o.texts .locales).length := of_decide_eq_true hmany
  have htargets : o.targets = o.texts .locales := by
    unfold Options.targets Options.vmTypes
    rw [if_pos hflag]
    rfl
  rw [← htargets, ho] at hlen
  exact absurd hlen (by simp)

theorem hasSuffix_iff {s : List Char} : hasSuffix s a = true ↔ s <:+ a.toList := by
  rw [hasSuffix, List.isSuffixOf_iff_suffix]

theorem hasSuffix_generated (ha : hasSuffix ('.' :: Session.sourceExtension.toList) a = true) :
    hasSuffix ('.' :: Session.compiledExtension.toList) (a ++ generatedSuffix) = true := by
  obtain ⟨x, hx⟩ := hasSuffix_iff.mp ha
  refine hasSuffix_iff.mpr ⟨x, ?_⟩
  rw [String.toList_append, ← hx]
  simp [Session.compiledExtension]

theorem not_hasSuffix_joined (a : String) :
    hasSuffix ('.' :: Session.compiledExtension.toList) (a ++ concatSuffix) = false := by
  rw [Bool.eq_false_iff]
  intro h
  have hjoined : concatSuffix.toList <:+ (a ++ concatSuffix).toList := by
    rw [String.toList_append]
    exact List.suffix_append _ _
  have hshort := List.suffix_of_suffix_length_le (hasSuffix_iff.mp h) hjoined (by decide)
  exact absurd hshort (by decide)

theorem ne_joined_of_hasSuffix {p q : Place}
    (ha : hasSuffix ('.' :: Session.compiledExtension.toList) a = true) :
    p ++ [a] ≠ q ++ [b ++ concatSuffix] := by
  intro heq
  have hlast : a = b ++ concatSuffix := List.singleton_inj.mp (List.append_inj' heq rfl).2
  rw [hlast, not_hasSuffix_joined] at ha
  cases ha

/-- A source as a search finds it: a name with the extension, below names without a dot. -/
structure Located (f : String) (ns : List String) (a : String) : Prop where
  eq : f = join "/" (ns ++ [a])
  name (n : String) : n ∈ ns ++ [a] → IsName n
  dotless (n : String) : n ∈ ns → '.' ∉ n.toList
  suffix : hasSuffix ('.' :: Session.sourceExtension.toList) a = true

theorem exists_source {t : FileTree} (ht : t.Regular) {path f : String} {files : List String}
    (hfind : t.findFiles path Session.sourceExtension = .ok files) (hf : f ∈ files) :
    ∃ ns a, Located f ns a := by
  cases hstat : t.stat path with
  | error kind =>
    have hmissing := search_of_stat_error (a := .full) hstat Session.sourceExtension
    cases hmissing.symm.trans hfind
  | ok r =>
    obtain ⟨hloc, hn⟩ := stat_ok_iff.mp hstat
    obtain ⟨found, hfound, -, hmem⟩ := ht.findFiles_spec hloc hn Session.sourceExtension
    rw [hfound] at hfind
    obtain rfl := Except.ok.inj hfind
    obtain ⟨ns, a, hhit, rfl⟩ := (hmem f).mp hf
    obtain ⟨m, hm⟩ := hhit.bound
    rw [List.append_assoc] at hm
    exact ⟨ns, a, rfl, fun n hn => ht.named _ m hm n (List.mem_append_right _ hn), hhit.dotless,
      hhit.suffix⟩

theorem Located.place_artifact {P : Place} {f : String} (hsource : Located f ns a)
    (hroot : Straight root P) (ho : o.multipleLocales = false) (locale : String) :
    artifactPlace o root f locale = P ++ ns ++ [a ++ generatedSuffix] := by
  have hne := ne_empty_of_isAbsolute hroot.isAbsolute
  rw [hsource.eq, artifactPlace, place_outputFile hne hsource.name, if_neg (by simp [ho]),
    hroot.place]
  rfl

section Search
variable {files : List String} {t₀ t t' : FileTree} {P : Place}

theorem exists_source_of_goal (hroot : Straight root P) (ho : o.multipleLocales = false)
    (hfiles : ∀ f ∈ files, ∃ ns a, Located f ns a) {g : Place} (hg : g ∈ goals o root files) :
    ∃ f ∈ files, ∃ ns a, Located f ns a ∧ g = P ++ ns ++ [a ++ generatedSuffix] := by
  obtain ⟨f, hf, l, -, rfl⟩ := mem_goals.mp hg
  obtain ⟨ns, a, hsource⟩ := hfiles f hf
  exact ⟨f, hf, ns, a, hsource, hsource.place_artifact hroot ho l⟩

/-- The places of generated files end in names with a dot, and no other name on the way has one. -/
theorem level_goals (hroot : Straight root P) (ho : o.multipleLocales = false)
    (hfiles : ∀ f ∈ files, ∃ ns a, Located f ns a) : Level P (goals o root files) := by
  constructor
  · intro g hg
    obtain ⟨_, _, ns, a, -, rfl⟩ := exists_source_of_goal hroot ho hfiles hg
    rw [List.append_assoc]
    exact List.prefix_append _ _
  · intro g g' hg hg' hpre
    obtain ⟨_, _, ns, a, -, rfl⟩ := exists_source_of_goal hroot ho hfiles hg
    obtain ⟨_, _, ns', a', hsource, rfl⟩ := exists_source_of_goal hroot ho hfiles hg'
    rw [List.dropLast_concat, List.append_assoc, List.prefix_append_right_inj] at hpre
    refine hsource.dotless _ (hpre.subset (List.mem_append_right ns (List.mem_singleton_self _))) ?_
    rw [String.toList_append]
    exact List.mem_append_right _ (by decide)

/-- A tree in which the generated files of some sources have been delivered to an empty root. -/
structure Filled (o : Options) (root : String) (P : Place) (files : List String)
    (t₀ t : FileTree) : Prop where
  straight : Straight root P
  one : o.multipleLocales = false
  sources (f : String) : f ∈ files → ∃ ns a, Located f ns a
  empty (p : Place) : P <+: p → p ≠ P → t₀.node? p = none
  grown : Grown P (goals o root files) t₀ t
  delivered (f : String) (ns : List String) (a : String) : f ∈ files → Located f ns a →
    ∃ c, t.node? (P ++ ns ++ [a ++ generatedSuffix]) = some (.file c)

theorem Filled.directory (h : Filled o root P files t₀ t)
    (hthere : files ≠ [] ∨ t₀.node? P = some .directory) : t.node? P = some .directory := by
  rcases hthere with hne | hdir
  · obtain ⟨f, hf⟩ := List.exists_mem_of_ne_nil files hne
    obtain ⟨ns, a, hsource⟩ := h.sources f hf
    obtain ⟨c, hc⟩ := h.delivered f ns a hf hsource
    refine h.grown.regular.proper.above ⟨ns ++ [a ++ generatedSuffix], by simp⟩ (fun heq => ?_) hc
    simpa using congrArg List.length heq
  · rcases h.grown.cases P List.prefix_rfl with hsame | ⟨-, -, -, hdir'⟩ | ⟨hg, -⟩
    · exact hsame.trans hdir
    · exact hdir'
    · obtain ⟨_, _, ns, a, -, hP⟩ := exists_source_of_goal h.straight h.one h.sources hg
      simpa using congrArg List.length hP

/-- Below the root only generated files have such names. -/
theorem Filled.hit_iff (h : Filled o root P files t₀ t) (hjoined : t.Joined t')
    (ms : List String) (b : String) :
    t'.Hit ('.' :: Session.compiledExtension.toList) P ms b ↔
      ∃ f ∈ files, ∃ a, Located f ms a ∧ b = a ++ generatedSuffix := by
  constructor
  · intro hhit
    obtain ⟨n, hn⟩ := hhit.bound
    rcases hjoined.cases (P ++ ms ++ [b]) with hsame | ⟨ns, a, -, heq, -⟩
    · have hbelow : P <+: P ++ ms ++ [b] := ⟨ms ++ [b], by simp⟩
      have hne : P ++ ms ++ [b] ≠ P := fun heq => by simpa using congrArg List.length heq
      rcases h.grown.cases _ hbelow with hsame' | ⟨g, hg, hpre, -⟩ | ⟨hg, -⟩
      · rw [hsame, hsame', h.empty _ hbelow hne] at hn
        cases hn
      · obtain ⟨_, _, ns, a, hsource, rfl⟩ := exists_source_of_goal h.straight h.one h.sources hg
        rw [List.dropLast_concat, List.append_assoc, List.prefix_append_right_inj] at hpre
        have hdotless := hsource.dotless b
          (hpre.subset (List.mem_append_right ms (List.mem_singleton_self b)))
        exact absurd ((hasSuffix_iff.mp hhit.suffix).subset List.mem_cons_self) hdotless
      · obtain ⟨f, hf, ns, a, hsource, heq⟩ := exists_source_of_goal h.straight h.one h.sources hg
        rw [List.append_assoc, List.append_assoc, List.append_cancel_left_eq] at heq
        obtain ⟨rfl, hb⟩ := List.append_inj' heq rfl
        exact ⟨f, hf, a, hsource, List.singleton_inj.mp hb⟩
    · exact absurd heq (ne_joined_of_hasSuffix hhit.suffix)
  · rintro ⟨f, hf, a, hsource, rfl⟩
    obtain ⟨c, hc⟩ := h.delivered f ms a hf hsource
    exact ⟨hsource.dotless, hasSuffix_generated hsource.suffix, hjoined.bound hc⟩

theorem Filled.findFiles (h : Filled o root P files t₀ t)
    (hthere : files ≠ [] ∨ t₀.node? P = some .directory) (hjoined : t.Joined t') :
    ∃ found, t'.findFiles root Session.compiledExtension = .ok found ∧ found.Nodup ∧
      (∀ x, x ∈ found ↔ ∃ f ∈ files, x = f ++ generatedSuffix) ∧
      ∀ x ∈ found, ∃ ns a, hasSuffix ('.' :: Session.compiledExtension.toList) a = true ∧
        place t'.cwd (under root x) = ns ++ [a] := by
  have hdir := hjoined.directory (h.directory hthere)
  have hloc := (stat_ok_iff.mp (hjoined.regular.proper.stat_straight h.straight hdir)).1
  obtain ⟨found, hfound, hnodup, hmem⟩ := hjoined.regular.findFiles_spec hloc hdir
    Session.compiledExtension
  refine ⟨found, hfound, hnodup, fun x => ?_, fun x hx => ?_⟩
  · rw [hmem]
    constructor
    · rintro ⟨ms, b, hhit, rfl⟩
      obtain ⟨f, hf, a, hsource, rfl⟩ := (h.hit_iff hjoined ms b).mp hhit
      exact ⟨f, hf, by rw [hsource.eq, join_concat_append]⟩
    · rintro ⟨f, hf, rfl⟩
      obtain ⟨ns, a, hsource⟩ := h.sources f hf
      refine ⟨ns, a ++ generatedSuffix, (h.hit_iff hjoined _ _).mpr ⟨f, hf, a, hsource, rfl⟩, ?_⟩
      rw [hsource.eq, join_concat_append]
  · obtain ⟨ms, b, hhit, rfl⟩ := (hmem x).mp hx
    obtain ⟨n, hn⟩ := hhit.bound
    rw [List.append_assoc] at hn
    have hdirect : Direct (join "/" (ms ++ [b])) "" 0 (ms ++ [b]) :=
      ⟨by simp, Or.inl ⟨rfl, by simp⟩, fun m hm =>
        hjoined.regular.named _ n hn m (List.mem_append_right _ hm)⟩
    refine ⟨P ++ ms, b, hhit.suffix, ?_⟩
    rw [place_under, h.straight.place, hdirect.place, if_pos rfl, Nat.sub_zero, List.take_length,
      List.append_assoc]

end Search

end Layout

namespace Session
open Host Stage Pipeline Reuse
variable {s s' : Session} {inputDir l : String} {files : List String}
  {listener : Option PassListener}

theorem straight_outputRoot (hcwd : isAbsolute s.env.surroundings.cwd = true)
    (htmp : isAbsolute s.env.surroundings.temporaryDir = true)
    (hnormal : normalize s.env.surroundings.temporaryDir = s.env.surroundings.temporaryDir)
    (hopts : s.env.options.Reached s.env.surroundings)
    (hfixed : s.env.options.flag .uniqueDir = false) :
    Straight s.outputRoot (place [] s.outputRoot) := by
  have htemporary := straight_normalize htmp
  rw [hnormal] at htemporary
  have hrooted := hopts.rooted_of (Q := fun p => ∃ ns, Straight p ns)
    (fun p => ⟨_, straight_normalize (isAbsolute_under hcwd p)⟩)
    ⟨_, htemporary.under ⟨by decide, by decide, by decide, by decide⟩⟩
  have hempty : ¬ ∃ ns, Straight "" ns := fun ⟨ns, hns⟩ =>
    ne_empty_of_isAbsolute hns.isAbsolute rfl
  obtain ⟨ns, hns⟩ := runDirectory_rooted hrooted hempty
  have hroot : s.outputRoot =
      (s.env.options.nonempty? .outputDir).getD (s.env.options.text .tmpDir) := by
    unfold outputRoot runDirectory
    rw [if_neg (by simp [hfixed])]
  rw [hroot]
  exact (hns.place []).symm ▸ hns

/-- What a compile call that ends well leaves, also where there is nothing to compile. -/
theorem yields_of_compileTemplates (hroot : isAbsolute s.outputRoot = true)
    (hkept : Kept s.env.options) (ht : s.env.tree.Regular)
    (hlevel : Level (place [] s.outputRoot) (goals s.env.options s.outputRoot files))
    (hfind : s.env.tree.findFiles inputDir sourceExtension = .ok files)
    (hdelivers : s.Delivers inputDir files)
    (hok : s.compileTemplates inputDir listener = (.ok (), s')) : ∃ t, s.Yields files s' t := by
  by_cases hne : files = []
  · subst files
    have hfind' : (s.env.openChannel listener).2.tree.findFiles inputDir sourceExtension =
        .ok [] := hfind
    unfold compileTemplates at hok
    dsimp only at hok
    rw [hfind'] at hok
    have htree : s'.env.tree = s.env.tree := by
      rw [← (Prod.mk.inj hok).2]
      exact (tells_emit _ _ none).tree
    refine ⟨s.env.tree, grown_refl _ _ ht, fun f hf => absurd hf List.not_mem_nil, ?_⟩
    rw [htree]
    exact joined_refl ht
  · obtain ⟨cs, channel, hcall⟩ := (Returned.found hfind hne hok).exists_compileFrom
    obtain ⟨t, hgrown, hdelivered, hjoined⟩ := yields_of_compileFrom (s := s.withChannels cs) hroot
      hkept ht hlevel hdelivers hcall
    exact ⟨t, hgrown, hdelivered, hjoined⟩

/-- **A reader loads what was compiled.** After a compile call for one locale with an empty output
root, exactly the generated files of the sources are found there, each once, and none of them is the
joined file. -/
theorem reader_finds_compiled (hcwd : isAbsolute s.env.surroundings.cwd = true)
    (htmp : isAbsolute s.env.surroundings.temporaryDir = true)
    (hnormal : normalize s.env.surroundings.temporaryDir = s.env.surroundings.temporaryDir)
    (hopts : s.env.options.Reached s.env.surroundings)
    (hfixed : s.env.options.flag .uniqueDir = false) (hlocale : s.env.options.targets = [l])
    (hkept : Kept s.env.options) (ht : s.env.tree.Regular)
    (hempty : ∀ p, place [] s.outputRoot <+: p → p ≠ place [] s.outputRoot →
      s.env.tree.node? p = none)
    (hthere : files ≠ [] ∨ s.env.tree.node? (place [] s.outputRoot) = some .directory)
    (hfind : s.env.tree.findFiles inputDir sourceExtension = .ok files)
    (hdelivers : s.Delivers inputDir files)
    (hok : s.compileTemplates inputDir listener = (.ok (), s')) :
    ∃ found, s'.env.tree.findFiles s.outputRoot compiledExtension = .ok found ∧
      found.Nodup ∧ (∀ x, x ∈ found ↔ ∃ f ∈ files, x = f ++ generatedSuffix) ∧
      (∀ x ∈ found, s'.env.readPlace (under s.outputRoot x) ≠
        s'.env.readPlace (concatFile s.env.options s.outputRoot (some l))) ∧
      ∀ locale, s'.loadDirectory s.outputRoot locale =
        s'.loadFiles (found.map (under s.outputRoot)) locale := by
  have hroot := straight_outputRoot hcwd htmp hnormal hopts hfixed
  have hone := multipleLocales_of_singleton hlocale
  have hsources : ∀ f ∈ files, ∃ ns a, Located f ns a := fun f hf => exists_source ht hfind hf
  obtain ⟨t, hgrown, hdelivered, hjoined⟩ := yields_of_compileTemplates hroot.isAbsolute hkept ht
    (level_goals hroot hone hsources) hfind hdelivers hok
  have hfilled : Filled s.env.options s.outputRoot (place [] s.outputRoot) files s.env.tree t := by
    refine ⟨hroot, hone, hsources, hempty, hgrown, fun f ns a hf hsource => ?_⟩
    rw [← hsource.place_artifact hroot hone l]
    exact hdelivered f hf l (hlocale ▸ List.mem_singleton_self l)
  obtain ⟨found, hfound, hnodup, hmem, hplace⟩ := hfilled.findFiles hthere hjoined
  refine ⟨found, hfound, hnodup, hmem, fun x hx heq => ?_, fun locale => ?_⟩
  · obtain ⟨ns, a, hsuffix, hx⟩ := hplace x hx
    obtain ⟨ms, b, hb⟩ := exists_place_joinedFile s.env ⟨inputDir, s.outputRoot, files, 0⟩ l
      s'.env.tree.cwd
    unfold readPlace at heq
    rw [place_tidy, hx] at heq
    exact ne_joined_of_hasSuffix hsuffix (heq.trans hb)
  · unfold loadDirectory
    rw [hfound]

section Sample
open Invocation

def joiningOptions : Options :=
  (sampleOptions.set .concatOutput (.flag true)).set .loadCompiledTemplates (.flag false)

def joiningSession : Session :=
  start { Host.new sampleSurroundings sampleTree ⟨2024, 1, 2, 3, 4, 5, 0⟩ (.ofInt 0) with
    options := joiningOptions } (.table [] .empty)

theorem reached_joiningOptions : joiningOptions.Reached sampleSurroundings := by
  let overrides : Table String Setting :=
    .ofList [("concat_output", .flag true), ("load_compiled_templates", .flag false)]
  have hknown : Options.unknown? overrides = none := by decide
  have hmerge : (sampleOptions.merge sampleSurroundings.cwd overrides).2 = joiningOptions := by
    unfold Options.merge
    rw [hknown]
    rfl
  exact hmerge ▸ .merge overrides reached_sampleOptions

theorem regular_sampleTree : sampleTree.Regular :=
  proper_sampleTree.regular (by decide +kernel) (by decide +kernel)

theorem empty_sampleTree (p : Place) (hp : place [] "/out" <+: p) (_ : p ≠ place [] "/out") :
    sampleTree.node? p = none := by
  have hout : place [] "/out" = ["out"] := by decide
  rw [hout] at hp
  have hkeys : ∀ q ∈ sampleTree.nodes.keys, ¬ ["out"] <+: q := by decide +kernel
  rw [Option.eq_none_iff_forall_ne_some]
  intro n hn
  exact hkeys p ((mem_keys_iff (by rintro rfl; simp at hp)).mpr ⟨n, hn⟩) hp

theorem suited_joiningOptions :
    Compilation.Suited "/in" joiningOptions "/out" sampleFiles sampleTree :=
  { suited_sampleFiles with fillable := { fillable_sampleFiles with } }

theorem delivers_joiningSession : joiningSession.Delivers "/in" sampleFiles := by
  intro part t log hdirty
  have hnone : joiningOptions.nonempty? .precompiledDir = none := by decide
  have hall := hdirty.symm.trans (filterDirty_none _ sampleFiles sampleTree hnone)
  obtain ⟨rfl, hprogress⟩ := Prod.mk.inj hall
  obtain ⟨rfl, -⟩ := Progress.mk.inj hprogress
  refine Compilation.delivers_start true (fun launch part hlaunch => ?_)
    suited_joiningOptions regular_sampleTree (by decide) (fun f hf l hl => ?_)
  · obtain rfl : ["soyc"] = launch := Except.ok.inj hlaunch
    have hflags : Invocation.flags joiningOptions "/out" =
        [outputPatternFlag, outputPattern sampleOptions "/out"] := by decide +kernel
    change Compilation.Request.ofArguments
      (["soyc"] ++ Invocation.flags joiningOptions "/out" ++ part) = _
    rw [hflags]
    rfl
  · rcases mem_sampleFiles hf with rfl | rfl
    · exact ⟨_, rfl⟩
    · exact ⟨_, rfl⟩

theorem findFiles_of_children {t : FileTree} (ht : t.Regular)
    (hdir : t.node? ["in"] = some .directory) (hviews : t.node? ["in", "views"] = some .directory)
    (hnames : (t.nodes.keys.filterMap (childName? ["in"])).Perm ["a.soy", "views"])
    (hbelow : (t.nodes.keys.filterMap (childName? ["in", "views"])).Perm ["b.soy"]) :
    t.findFiles "/in" sourceExtension = .ok sampleFiles := by
  have hstraight : Straight "/in" ["in"] :=
    .of_eq (Or.inl rfl) (by decide) (List.forall_mem_singleton.mpr (by decide))
  obtain ⟨hloc, -⟩ := stat_ok_iff.mp (ht.proper.stat_straight hstraight hdir)
  rw [ht.findFiles_eq hloc hdir sourceExtension (Nat.le_succ _),
    found_of_list ["views"] hdir (list_of_perm hnames (by decide)) (by decide)]
  simp only [List.flatMap_cons, List.flatMap_nil, List.append_nil, List.cons_append,
    List.nil_append]
  rw [found_of_list [] hviews (list_of_perm hbelow (by decide)) (by decide), List.flatMap_nil]
  decide

theorem findFiles_sampleTree : sampleTree.findFiles "/in" sourceExtension = .ok sampleFiles :=
  findFiles_of_children regular_sampleTree rfl rfl (by decide +kernel) (by decide +kernel)

theorem compileTemplates_joiningSession :
    (joiningSession.compileTemplates "/in" none).1 = .ok () := by
  have hfind : (joiningSession.env.openChannel none).2.tree.findFiles "/in" sourceExtension =
      .ok sampleFiles := findFiles_sampleTree
  apply ok_of_isOk
  unfold compileTemplates
  dsimp only
  rw [hfind]
  decide +kernel

/-- One of the sources is in a directory below. The joined file of the default locale is written
next to what is found. -/
theorem reader_finds_compiled_sample : ∃ s' found,
    joiningSession.compileTemplates "/in" none = (.ok (), s') ∧
      s'.env.tree.findFiles "/out" compiledExtension = .ok found ∧ found.Nodup ∧
      ∀ x, x ∈ found ↔ x = "a.soy.py" ∨ x = "views/b.soy.py" := by
  have hok : joiningSession.compileTemplates "/in" none =
      (.ok (), (joiningSession.compileTemplates "/in" none).2) :=
    Prod.ext compileTemplates_joiningSession rfl
  have hlocale : joiningSession.env.options.targets = ["default"] := by decide
  obtain ⟨found, hfound, hnodup, hmem, -⟩ := reader_finds_compiled (s := joiningSession) (by decide)
    (by decide) (by decide) reached_joiningOptions (by decide) hlocale (Or.inl (by decide))
    regular_sampleTree empty_sampleTree (Or.inl (by decide)) findFiles_sampleTree
    delivers_joiningSession hok
  refine ⟨_, found, hok, hfound, hnodup, fun x => (hmem x).trans ?_⟩
  simp [sampleFiles, generatedSuffix]

end Sample

end Session

end TemplateHost
