import TemplateHost.Proofs.Files.Growth
import TemplateHost.Proofs.Host.Call
import TemplateHost.Proofs.Host.Concatenation
import TemplateHost.Proofs.Host.Gathering

/-!
# Output

What a compile call that ends well leaves below its output root: generated files of all sources,
which earlier output or the compiler brought there, the directories above them, and joined files.
-/
namespace TemplateHost
open FileTree Layout TemplateHost.Path

namespace Layout
variable {o : Options} {root : String} {files : List String} {t t' : FileTree} {f : String}

def goals (o : Options) (root : String) (files : List String) : List Place :=
  files.flatMap fun f => o.targets.map (artifactPlace o root f)

theorem mem_goals {p : Place} :
    p ∈ goals o root files ↔ ∃ f ∈ files, ∃ l ∈ o.targets, artifactPlace o root f l = p := by
  simp [goals]

theorem mem_goals_of {l : String} (hf : f ∈ files) (hl : l ∈ o.targets) :
    artifactPlace o root f l ∈ goals o root files := mem_goals.mpr ⟨f, hf, l, hl, rfl⟩

theorem goals_subset {part : List String} (hpart : part ⊆ files) :
    goals o root part ⊆ goals o root files := by
  intro p hp
  obtain ⟨f, hf, l, hl, rfl⟩ := mem_goals.mp hp
  exact mem_goals_of (hpart hf) hl

def Delivered (o : Options) (root : String) (t : FileTree) (f : String) : Prop :=
  ∀ l ∈ o.targets, ∃ c, t.node? (artifactPlace o root f l) = some (.file c)

theorem Delivered.grown {region : Place} (h : Delivered o root t f)
    (hgrown : Grown region (goals o root files) t t') (hlevel : Level region (goals o root files))
    (hf : f ∈ files) : Delivered o root t' f := by
  intro l hl
  obtain ⟨c, hc⟩ := h l hl
  exact hgrown.file hlevel (mem_goals_of hf hl) hc

end Layout

/-- A compiler that, if it succeeds with some sources, leaves their generated files, and below the
output root changes nothing else but directories above these. -/
def Compiler.Delivers (c : Compiler) (o : Options) (root inputDir : String) (part : List String)
    (t : FileTree) : Prop :=
  ∀ args exit t', Invocation.arguments o root part = .ok args →
    c args inputDir t = .ok (exit, t') → exit.status = 0 →
    Grown (place [] root) (goals o root part) t t' ∧ ∀ f ∈ part, Delivered o root t' f

namespace Reuse
variable {o : Options} {root earlierRoot : String} {region : Place} {places : List Place}
  {p : Progress} {files : List String} {t : FileTree}

theorem grown_prepareArtifact (w : Transfer) (region : Place) (hp : p.tree.Regular)
    (hgoal : w.goal p.tree.cwd ∈ places) :
    Grown region places p.tree (prepareArtifact w.earlier w.target p).2.tree ∧
      ((prepareArtifact w.earlier w.target p).1 = true →
        ∃ c, (prepareArtifact w.earlier w.target p).2.tree.node? (w.goal p.tree.cwd) =
          some (.file c)) := by
  have hregular := hp.prepareArtifact w.earlier w.target
  have hrun := Outcome.Keeps.run (I := Transferred [w] p.tree) (R := Later [w] p.tree)
    (fun _ _ _ => Later.trans) (fun _ _ => Later.transferred)
    (keeps_prepare (transferred_refl [w] hp.proper) hp.proper (apart_singleton _ w)
      (List.mem_singleton_self w))
  rw [run_prepare w hp.proper] at hregular ⊢
  change Later [w] p.tree p.tree (Flow.run w.prepare p.tree).2 ∧
    (Flow.run w.prepare p.tree).1.Told w p.tree (Flow.run w.prepare p.tree).2 at hrun
  generalize Flow.run w.prepare p.tree = r at hrun hregular ⊢
  obtain ⟨fate, t⟩ := r
  obtain ⟨⟨htransferred, -⟩, htold⟩ := hrun
  refine ⟨⟨hregular, htransferred.cwd, fun q _ => ?_⟩, fun hready => ?_⟩
  · rcases htransferred.cases q with hsame | ⟨v, hv, -, hq, c, -, hc⟩ | ⟨v, hv, hpre, -, hdir⟩
    · exact Or.inl hsame
    · rw [List.mem_singleton.mp hv] at hq
      exact Or.inr (Or.inr ⟨hq ▸ hgoal, c, hc⟩)
    · rw [List.mem_singleton.mp hv] at hpre
      exact Or.inr (Or.inl ⟨_, hgoal, hpre, hdir⟩)
  · cases fate with
    | missing => cases hready
    | failed kind => cases hready
    | ready =>
      obtain ⟨c, -, hc⟩ := htransferred.arrived_iff.mp htold
      exact ⟨c, hc⟩

theorem goal_transfer (hroot : isAbsolute root = true) (earlierRoot file locale : String)
    (cwd : Place) :
    (transfer o root earlierRoot file locale).goal cwd = artifactPlace o root file locale :=
  (straight_artifactPlace hroot o file locale).1.place cwd

theorem grown_prepareSource (hroot : isAbsolute root = true) (hlevel : Level region places)
    (earlierRoot : String) (hp : p.tree.Regular) {file : String} {ls : List String}
    (hgoals : ∀ l ∈ ls, artifactPlace o root file l ∈ places) :
    Grown region places p.tree (prepareSource o root earlierRoot file ls p).2.tree ∧
      ((prepareSource o root earlierRoot file ls p).1 = true → ∀ l ∈ ls, ∃ c,
        (prepareSource o root earlierRoot file ls p).2.tree.node? (artifactPlace o root file l) =
          some (.file c)) := by
  induction ls generalizing p with
  | nil => exact ⟨grown_refl region places hp, fun _ => List.forall_mem_nil _⟩
  | cons l ls ih =>
    obtain ⟨hl, hls⟩ := List.forall_mem_cons.mp hgoals
    have hone := grown_prepareArtifact (transfer o root earlierRoot file l) region hp
      (by rwa [goal_transfer hroot])
    rw [goal_transfer hroot, transfer_earlier, transfer_target] at hone
    obtain ⟨hgrown, hready⟩ := hone
    obtain ⟨hgrown', hready'⟩ := ih hgrown.regular hls
    rw [prepareSource_cons]
    refine ⟨hgrown.trans hgrown', fun hboth => ?_⟩
    obtain ⟨hfirst, hrest⟩ := Bool.and_eq_true_iff.mp hboth
    obtain ⟨c, hc⟩ := hready hfirst
    exact List.forall_mem_cons.mpr ⟨hgrown'.file hlevel hl hc, hready' hrest⟩

theorem grown_prepareAll (hroot : isAbsolute root = true)
    (hlevel : Level region (goals o root files)) (earlierRoot : String)
    (refused : String → Bool) {fs : List String} (hfs : fs ⊆ files) (hp : p.tree.Regular) :
    Grown region (goals o root files) p.tree (prepareAll o root earlierRoot refused fs p).2.tree ∧
      (prepareAll o root earlierRoot refused fs p).1.length = fs.length ∧
      ∀ e ∈ fs.zip (prepareAll o root earlierRoot refused fs p).1, e.2 = true →
        Delivered o root (prepareAll o root earlierRoot refused fs p).2.tree e.1 := by
  induction fs generalizing p with
  | nil => exact ⟨grown_refl region _ hp, rfl, List.forall_mem_nil _⟩
  | cons f fs ih =>
    obtain ⟨hf, hrest⟩ := List.cons_subset.mp hfs
    have hone : ∃ ready p', (if refused f then (false, p)
        else prepareSource o root earlierRoot f o.targets p) = (ready, p') ∧
        Grown region (goals o root files) p.tree p'.tree ∧
        (ready = true → Delivered o root p'.tree f) := by
      split_ifs
      · exact ⟨false, p, rfl, grown_refl region _ hp, nofun⟩
      · obtain ⟨hgrown, hready⟩ := grown_prepareSource hroot hlevel earlierRoot hp
          fun l hl => mem_goals_of hf hl
        exact ⟨_, _, rfl, hgrown, hready⟩
    obtain ⟨ready, p', heq, hgrown, hready⟩ := hone
    obtain ⟨hgrown', hlen, hready'⟩ := ih hrest hgrown.regular
    unfold prepareAll
    rw [heq]
    dsimp only
    refine ⟨hgrown.trans hgrown', by simp [hlen], ?_⟩
    rw [List.zip_cons_cons]
    exact List.forall_mem_cons.mpr ⟨fun h => (hready h).grown hgrown' hlevel hf, hready'⟩

theorem grown_filterDirty (hroot : isAbsolute root = true)
    (hlevel : Level region (goals o root files)) (earlier : Option String)
    (refused : String → Bool) (ht : t.Regular) :
    (filterDirty o root files earlier refused t).1 ⊆ files ∧
      Grown region (goals o root files) t (filterDirty o root files earlier refused t).2.tree ∧
      ∀ f ∈ files, f ∉ (filterDirty o root files earlier refused t).1 →
        Delivered o root (filterDirty o root files earlier refused t).2.tree f := by
  cases hearlier : earlierRoot? o earlier with
  | none =>
    rw [filterDirty_of_none hearlier]
    exact ⟨List.Subset.refl files, grown_refl region _ ht, fun f hf hnot => absurd hf hnot⟩
  | some earlierRoot =>
    obtain ⟨hgrown, hlen, hready⟩ := grown_prepareAll (p := ⟨t, []⟩) hroot hlevel earlierRoot
      refused (List.Subset.refl files) ht
    obtain ⟨hdirty, htree⟩ := filterDirty_of_some hearlier root files refused t
    rw [hdirty, htree]
    refine ⟨?_, hgrown, fun f hf hnot => ?_⟩
    · split_ifs
      · exact List.Subset.refl files
      · intro f hf
        obtain ⟨e, he, rfl⟩ := List.mem_map.mp hf
        exact (List.of_mem_zip (List.mem_of_mem_filter he)).1
    · split_ifs at hnot
      · exact absurd hf hnot
      · obtain ⟨ready, hmem⟩ := exists_mem_zip hlen.symm hf
        refine hready (f, ready) hmem (by_contra fun hfalse => hnot ?_)
        exact List.mem_map.mpr ⟨_, List.mem_filter.mpr ⟨hmem, by simpa using hfalse⟩, rfl⟩

end Reuse

namespace FileTree
variable {t t' t'' : FileTree}

/-- Files have been written, or written anew, under the names of joined files only. -/
structure Joined (t t' : FileTree) : Prop where
  regular : t'.Regular
  cwd : t'.cwd = t.cwd
  cases (p : Place) : t'.node? p = t.node? p ∨
    ∃ ns a c, p = ns ++ [a ++ concatSuffix] ∧ t.node? p ≠ some .directory ∧
      t'.node? p = some (.file c)

theorem joined_refl (ht : t.Regular) : Joined t t := ⟨ht, rfl, fun _ => Or.inl rfl⟩

theorem Joined.trans (h : Joined t t') (h' : Joined t' t'') : Joined t t'' := by
  refine ⟨h'.regular, h'.cwd.trans h.cwd, fun p => ?_⟩
  rcases h'.cases p with hsame | ⟨ns, a, c, hp, hdir, hfile⟩
  · rw [hsame]
    exact h.cases p
  · refine Or.inr ⟨ns, a, c, hp, fun hd => hdir ?_, hfile⟩
    rcases h.cases p with hsame | ⟨-, -, -, -, hno, -⟩
    · rw [hsame, hd]
    · exact absurd hd hno

theorem Joined.bound (h : Joined t t') {p : Place} {n : Node} (hn : t.node? p = some n) :
    ∃ m, t'.node? p = some m := by
  rcases h.cases p with hsame | ⟨-, -, c, -, -, hfile⟩
  · exact ⟨n, hsame.trans hn⟩
  · exact ⟨_, hfile⟩

theorem Joined.directory (h : Joined t t') {p : Place} (hp : t.node? p = some .directory) :
    t'.node? p = some .directory := by
  rcases h.cases p with hsame | ⟨-, -, -, -, hno, -⟩
  · exact hsame.trans hp
  · exact absurd hp hno

end FileTree

namespace Pipeline
open Stage
variable {plan : Plan} {part : List String} {h h₁ : Host}

theorem exists_place_joinedFile (h : Host) (plan : Plan) (locale : String) (cwd : Place) :
    ∃ ns a, place cwd (tidy (h.joinedFile plan locale)) = ns ++ [a ++ concatSuffix] := by
  rw [place_tidy]
  unfold Host.joinedFile concatFile
  dsimp only
  generalize (if h.options.multipleLocales then
    h.options.text .concatFileName ++ "_" ++ localeOrDefault (some locale)
    else h.options.text .concatFileName) = name
  have hname : IsName (base name ++ concatSuffix) :=
    isName_append (base_no_slash name) (by decide) (by decide)
  have hsteps : ∃ ss, steps (name ++ concatSuffix) = ss ++ [base name ++ concatSuffix] := by
    have hlast : steps (base name ++ concatSuffix) = [base name ++ concatSuffix] :=
      steps_of_no_slash hname.no_slash
    rcases eq_base_or name with heq | ⟨x, heq⟩
    · rw [← heq] at hlast ⊢
      exact ⟨[], hlast⟩
    · refine ⟨steps x, ?_⟩
      conv_lhs => rw [heq, String.append_assoc, steps_append_slash, hlast]
  obtain ⟨ss, hsteps⟩ := hsteps
  obtain ⟨ns, hns⟩ := exists_place_concat hsteps hname (place cwd plan.outputDir)
  rw [place_under]
  exact ⟨ns, base name, hns⟩

theorem joined_concat (plan : Plan) (paths : List String) (locale : String) (ht : h.tree.Regular) :
    h.tree.Joined (perform (concat plan paths locale) h).2.tree := by
  rw [perform_concat]
  split_ifs
  · obtain ⟨t, log, heq, rfl | ⟨c, hwrite⟩⟩ := concatInto_eq paths (h.joinedFile plan locale) h
    · rw [heq]
      exact joined_refl ht
    · rw [heq]
      have hregular := ht.write hwrite
      obtain ⟨rfl, hdir, -⟩ := ht.proper.of_write hwrite
      obtain ⟨ns, a, hplace⟩ := exists_place_joinedFile h plan locale h.tree.cwd
      refine ⟨hregular, rfl, fun p => ?_⟩
      by_cases hp : p = place h.tree.cwd (tidy (h.joinedFile plan locale))
      · subst p
        rw [hplace]
        rw [hplace] at hdir
        exact Or.inr ⟨ns, a, c, rfl, hdir, node?_put_self (by simp) _⟩
      · exact Or.inl (node?_put_ne hp _)
  · exact joined_refl ht

theorem joined_postCompileAll (plan : Plan) (locales : List String) (ht : h.tree.Regular) :
    h.tree.Joined (perform (postCompileAll plan locales) h).2.tree := by
  induction locales generalizing h with
  | nil => exact joined_refl ht
  | cons l r ih =>
    have hone := joined_concat plan (modulePaths plan h l) l ht
    rw [← (postCompile_after_concat plan l h).2] at hone
    rw [perform_postCompileAll_cons]
    cases hrun : perform (postCompile plan l) h with
    | mk q x =>
      rw [hrun] at hone
      cases q with
      | error p => exact hone
      | ok u => exact hone.trans (ih hone.regular)

theorem grown_compileDirty (plan : Plan) (ht : h.tree.Regular)
    (hdelivers : h.compiler.Delivers h.options plan.outputDir plan.inputDir part h.tree)
    (hok : perform (compileDirty plan part) h = (.ok (), h₁)) :
    h₁.options = h.options ∧
      Grown (place [] plan.outputDir) (goals h.options plan.outputDir part) h.tree h₁.tree ∧
      ∀ f ∈ part, Delivered h.options plan.outputDir h₁.tree f := by
  rcases compileDirty_ok hok with ⟨rfl, rfl⟩ | ⟨args, exit, t, -, hargs, hrun, hexit, rfl⟩
  · exact ⟨rfl, grown_refl _ _ ht, List.forall_mem_nil _⟩
  · exact ⟨rfl, hdelivers args exit t hargs hrun hexit⟩

end Pipeline

namespace Compilation
variable {r : Request} {cwd : String} {locale : Option String} {t : FileTree}

theorem regular_compileOne (ht : t.Regular) (source : String) :
    (compileOne r cwd locale source t).2.Regular := by
  unfold compileOne
  cases sourceAt t cwd source with
  | none => exact ht
  | some s =>
    cases s with
    | stop status stderr => exact ht
    | skip => exact ht
    | module statements =>
      dsimp only
      generalize hwrite : t.writeNested _ _ = w
      cases w with
      | error kind => exact ht
      | ok t' => exact ht.writeNested hwrite

theorem regular_inTurn {ι : Type} {step : ι → FileTree → Option Exit × FileTree}
    (hstep : ∀ i t, t.Regular → (step i t).2.Regular) (ht : t.Regular) (is : List ι) :
    (inTurn step is t).2.Regular := by
  induction is generalizing t with
  | nil => exact ht
  | cons i rest ih =>
    have hone := hstep i t ht
    unfold inTurn
    cases hrun : step i t with
    | mk stopped t' =>
      rw [hrun] at hone
      cases stopped with
      | none => exact ih hone
      | some _ => exact hone

theorem regular_compileLocales (ht : t.Regular) (locales : List (Option String)) :
    (compileLocales r cwd locales t).2.Regular := by
  rw [compileLocales_eq]
  exact regular_inTurn (fun _ _ ht => regular_inTurn (fun f _ ht => regular_compileOne ht f) ht _)
    ht locales

theorem regular_start (ht : t.Regular) {args : List String} {exit : Exit} {t' : FileTree}
    (h : start args cwd t = .ok (exit, t')) : t'.Regular := by
  unfold start at h
  dsimp only at h
  split_ifs at h
  rw [← (Prod.mk.inj (Except.ok.inj h)).2]
  exact regular_compileLocales ht _

/-- **The compiler delivers.** -/
theorem delivers_start {o : Options} {root inputDir : String} {files : List String}
    (declareTop : Bool)
    (hread : ∀ launch part, Invocation.launcher o = .ok launch →
      Request.ofArguments (launch ++ Invocation.flags o root ++ part) =
        ⟨o.targets.map (requested o), declareTop, outputPattern o root, part⟩)
    (hs : Suited inputDir o root files t) (ht : t.Regular) (hne : files ≠ [])
    (hmade : ∀ f ∈ files, ∀ l ∈ o.targets, ∃ c, yieldOf declareTop o t inputDir f l = some c) :
    Compiler.Delivers start o root inputDir files t := by
  intro args exit t' hargs hrun hexit
  obtain ⟨exit', t₂, hrun', -, hplaced⟩ := separate_start hread hs ht.proper args exit t' hargs hrun
    hexit files args [] t (List.Sublist.refl files) hne hargs (List.nil_subset _) (placed_nil t)
  rw [hrun] at hrun'
  obtain ⟨-, rfl⟩ := Prod.mk.inj (Except.ok.inj hrun')
  refine ⟨(hplaced.grown (regular_start ht hrun) _).mono ?_, fun f hf l hl => ?_⟩
  · intro p hp
    obtain ⟨w, hw, rfl⟩ := List.mem_map.mp hp
    obtain ⟨f, hf, l, hl, c, -, rfl⟩ := mem_artifacts.mp hw
    exact mem_goals_of hf hl
  · obtain ⟨c, hc⟩ := hmade f hf l hl
    exact ⟨c, hplaced.file _ (mem_artifacts_of root hf hl hc)⟩

end Compilation

namespace Session
open Host Stage Pipeline Reuse
variable {s s' : Session} {inputDir : String} {files : List String} {channel : ChannelId}

abbrev outputRoot (s : Session) : String := runDirectory s.env.options s.env.now

/-- The compiler delivers what of some sources cannot be reused. -/
def Delivers (s : Session) (inputDir : String) (files : List String) : Prop :=
  ∀ part t log, filterDirty s.env.options s.outputRoot files none (fun _ => false) s.env.tree =
      (part, ⟨t, log⟩) →
    s.env.compiler.Delivers s.env.options s.outputRoot inputDir part t

/-- All generated files are delivered, and then output is joined. -/
structure Yields (s : Session) (files : List String) (s' : Session) (t : FileTree) : Prop where
  grown : Grown (place [] s.outputRoot) (goals s.env.options s.outputRoot files) s.env.tree t
  delivered (f : String) : f ∈ files → Delivered s.env.options s.outputRoot t f
  joined : t.Joined s'.env.tree

/-- **What a compile call leaves.** -/
theorem yields_of_compileFrom (hroot : isAbsolute s.outputRoot = true)
    (hkept : Kept s.env.options) (ht : s.env.tree.Regular)
    (hlevel : Level (place [] s.outputRoot) (goals s.env.options s.outputRoot files))
    (hdelivers : s.Delivers inputDir files)
    (hok : s.compileFrom inputDir files channel = (.ok (), s')) : ∃ t, s.Yields files s' t := by
  obtain ⟨hpart, hgrown, hreused⟩ := grown_filterDirty hroot hlevel none (fun _ => false) ht
  cases hdirty : filterDirty s.env.options s.outputRoot files none (fun _ => false)
      s.env.tree with
  | mk part progress =>
    obtain ⟨t, log⟩ := progress
    rw [hdirty] at hpart hgrown hreused
    obtain ⟨plans, log', h₁, h₂, hcompile, hpost, henv⟩ := compileFrom_ok_reusing hdirty hok
    obtain ⟨hoptions, hgrown', hdelivered⟩ := grown_compileDirty
      (h := { s.env with tree := t, plans := plans, log := log' })
      (s.planFor inputDir files channel) hgrown.regular (hdelivers part t log hdirty) hcompile
    have hboth := hgrown'.mono (goals_subset hpart)
    refine ⟨h₁.tree, hgrown.trans hboth, fun f hf => ?_, ?_⟩
    · by_cases hmem : f ∈ part
      · exact hdelivered f hmem
      · exact (hreused f hf hmem).grown hboth hlevel hf
    · have hjoined := joined_postCompileAll (s.planFor inputDir files channel)
        h₁.options.targets hboth.regular
      rw [hpost] at hjoined
      have hworks := (works_postCompileAll (s.planFor inputDir files channel)
        h₁.options.targets).perform h₁
      rw [hpost] at hworks
      have hkept' : Kept h₂.options := by
        rw [hworks.options, hoptions]
        exact hkept
      have hending : (conclude (s.planFor inputDir files channel) none h₂).2.tree = h₂.tree :=
        tree_ending hkept' (s.planFor inputDir files channel) (.ok ())
      rw [henv] at hending
      exact hending ▸ hjoined

end Session

end TemplateHost
