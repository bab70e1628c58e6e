import TemplateHost.Proofs.Host.Attempt
import TemplateHost.Proofs.Host.InPlace

/-!
# A second run

A second run that looks for earlier output where its own goes starts a compiler for the sources
whose artifacts have got two paths, and for nothing if there are none. Then it leaves all artifacts
as they are, also where output is erased in the end: what the first run has left lies elsewhere.
-/
namespace TemplateHost
open FileTree Layout TemplateHost.Path

namespace FileTree
variable {t t' : FileTree} {path : String} {p : Place}

theorem removeTree_of_directory (h : t.stat path = .ok (p, .directory)) :
    t.removeTree path = .ok (t.removeAt p) := by
  unfold removeTree
  rw [h]
  rfl

theorem exists_of_removeTree (h : t.removeTree path = .ok t') :
    ∃ p, t.stat path = .ok (p, .directory) ∧ t' = t.removeAt p := by
  unfold removeTree at h
  cases hstat : t.stat path with
  | error kind =>
    rw [hstat] at h
    cases h
  | ok r =>
    obtain ⟨p, n⟩ := r
    rw [hstat] at h
    cases n with
    | file c => cases h
    | directory => exact ⟨p, rfl, (Except.ok.inj h).symm⟩

theorem removeTree_straight (hpath : Straight path p) (h : t.removeTree path = .ok t') :
    t.node? p = some .directory ∧
      ∀ q c, t'.node? q = some (.file c) ↔ t.node? q = some (.file c) ∧ ¬ p <+: q := by
  obtain ⟨r, hstat, rfl⟩ := exists_of_removeTree h
  obtain ⟨hloc, hdir⟩ := stat_ok_iff.mp hstat
  obtain rfl : r = p := (locate_ok hloc).trans (hpath.place _)
  refine ⟨hdir, fun q c => ?_⟩
  by_cases hq : q = []
  · subst q
    simp [node?_nil]
  · rw [node?_removeAt _ _ hq]
    by_cases hbelow : r <+: q
    · simp [hbelow]
    · simp [hbelow]

end FileTree

namespace Pipeline
open Host Stage
variable {plan : Plan} {h : Host} {root q : Place} {c : Content} {dirty : List String}

/-- No file is left below an output root that was to be erased, even if that has failed. -/
theorem eq_root_of_erased {h' : Host} (herased : eraseOutput plan h = (.ok (), h'))
    (hroot : Straight plan.outputDir root) (hon : ¬ Kept h.options) (ht : h'.tree.Proper)
    (hfile : h'.tree.node? q = some (.file c)) (hbelow : root <+: q) : q = root := by
  rcases eraseOutput_spec plan h with
    ⟨hoff, -⟩ | ⟨-, ⟨-, heq⟩ | ⟨-, ⟨t, hremove, heq⟩ | ⟨kind, hremove, heq⟩⟩⟩
  · exact absurd hoff hon
  · cases herased.symm.trans heq
  · cases herased.symm.trans heq
    exact absurd hbelow (((removeTree_straight hroot hremove).2 q c).mp hfile).2
  · cases herased.symm.trans heq
    change h.tree.node? q = _ at hfile
    change h.tree.Proper at ht
    by_contra hne
    have hdir := ht.above hbelow (Ne.symm hne) hfile
    rw [removeTree_of_directory (ht.stat_straight hroot hdir)] at hremove
    cases hremove

theorem options_eraseOutput (plan : Plan) (h : Host) :
    (eraseOutput plan h).2.options = h.options := by
  obtain ⟨t, log, heq, -⟩ := eraseOutput_frame plan h
  rw [heq]
  rfl

theorem node?_eraseOutput (hroot : Straight plan.outputDir root)
    (hbelow : ¬ Kept h.options → root <+: q → q = root)
    (hfile : h.tree.node? q = some (.file c)) :
    (eraseOutput plan h).2.tree.node? q = some (.file c) := by
  rcases eraseOutput_spec plan h with
    ⟨-, heq⟩ | ⟨⟨herase, hwatch⟩, ⟨-, heq⟩ | ⟨-, ⟨t, hremove, heq⟩ | ⟨kind, -, heq⟩⟩⟩
  · rwa [heq]
  · rwa [heq]
  · rw [heq]
    obtain ⟨hdir, hfiles⟩ := removeTree_straight hroot hremove
    have hon : ¬ Kept h.options := by simp [Kept, herase, hwatch]
    refine (hfiles q c).mpr ⟨hfile, fun hpre => ?_⟩
    rw [hbelow hon hpre, hdir] at hfile
    cases hfile
  · rw [heq]
    exact hfile

theorem node?_ending (hroot : Straight plan.outputDir root)
    (hbelow : ¬ Kept h.options → root <+: q → q = root)
    (hfile : h.tree.node? q = some (.file c)) (r : Except Problem Unit) :
    (ending plan r h).2.tree.node? q = some (.file c) := by
  unfold ending
  cases verdict r with
  | error p => exact hfile
  | ok error =>
    refine (conclude_of_emit (R := fun h h' => (¬ Kept h.options → root <+: q → q = root) →
      h.tree.node? q = some (.file c) →
        h'.options = h.options ∧ h'.tree.node? q = some (.file c)) ?_ ?_ ?_ hbelow hfile).2
    · intro h h' h'' h₁ h₂ hbelow hfile
      obtain ⟨hopt, hfile'⟩ := h₁ hbelow hfile
      obtain ⟨hopt', hfile''⟩ := h₂ (hopt.symm ▸ hbelow) hfile'
      exact ⟨hopt'.trans hopt, hfile''⟩
    · obtain ⟨htree, hopt, -⟩ := tells_emit h plan.channel error
      exact fun _ hfile => ⟨hopt, htree.symm ▸ hfile⟩
    · exact fun t hbelow hfile =>
        ⟨options_eraseOutput plan t, node?_eraseOutput hroot hbelow hfile⟩

/-- A pass with nothing to compile leaves the generated files. -/
theorem node?_pass_nil (plan : Plan) (ht : h.tree.Regular)
    (hroot : Straight plan.outputDir root) (hbelow : ¬ Kept h.options → root <+: q → q = root)
    (hname : ∀ ns a, q ≠ ns ++ [a ++ concatSuffix])
    (hfile : h.tree.node? q = some (.file c)) :
    (perform (pass plan []) h).2.tree.node? q = some (.file c) := by
  have hstages : perform (stages plan []) h =
      perform (postCompileAll plan h.options.targets) h := by
    unfold stages
    rw [perform_bind_ok (perform_compileDirty_nil plan h)]
    rfl
  have hjoined := joined_postCompileAll plan h.options.targets ht
  have hoptions := ((works_postCompileAll plan h.options.targets).perform h).options
  rw [perform_pass_eq, hstages]
  refine node?_ending hroot (by rwa [hoptions]) ?_ _
  rcases hjoined.cases q with hsame | ⟨ns, a, -, heq, -⟩
  · rw [hsame, hfile]
  · exact absurd heq (hname ns a)

theorem spawns_pass (plan : Plan) (dirty : List String) (h : Host) :
    ∃ started, Launched plan dirty h started ∧
      (perform (pass plan dirty) h).2.spawns = h.spawns ++ started := by
  cases hrun : perform (compileDirty plan dirty) h with
  | mk r t =>
    obtain ⟨started, hlaunched, hstarted, -, -⟩ := compileDirty_cases hrun
    refine ⟨started, hlaunched, ?_⟩
    rw [perform_pass_eq, spawns_ending]
    unfold stages
    rw [perform_bind, hrun]
    cases r with
    | error p => exact hstarted
    | ok u =>
      have hsettles : Settles t (perform (postCompileAll plan t.options.targets) t).2 :=
        Outcome.Within.run (R := Settles) Settles.trans
          ((settles_postCompileAll plan t.options.targets).strides t)
      exact hsettles.spawns.trans hstarted

end Pipeline

namespace Session
open Host Stage Pipeline Reuse
variable {s s' s₁ s₂ : Session} {inputDir d cwd : String} {files : List String}

/-- The options by which a run looks for earlier output where its own goes. -/
def sharing (d : String) : Table String Setting := .ofList
  [("output_dir", .text d), ("precompiled_dir", .text d), ("unique_dir", .flag false)]

theorem setOptions_sharing (hcwd : isAbsolute s.env.surroundings.cwd = true) (hd : d ≠ "")
    (hset : s.setOptions (sharing d) = (.ok (), s₁)) :
    s₁.env.options.nonempty? .precompiledDir = some d ∧
      ∀ now, runDirectory s₁.env.options now = absolute s.env.surroundings.cwd d := by
  have hknown : Options.unknown? (sharing d) = none := rfl
  unfold setOptions Options.merge at hset
  rw [hknown] at hset
  have hoptions : s₁.env.options = ((s.env.options.assign s.env.surroundings.cwd .outputDir
      (.text d)).assign s.env.surroundings.cwd .precompiledDir (.text d)).assign
        s.env.surroundings.cwd .uniqueDir (.flag false) := by
    rw [← (Prod.mk.inj hset).2]
    rfl
  have htrue : (Setting.text d).isTrue = true := by simp [Setting.isTrue, hd]
  have houtput : s₁.env.options .outputDir = .text (absolute s.env.surroundings.cwd d) := by
    rw [hoptions]
    simp [Options.assign, Options.stored, OptionName.isResolved, htrue]
  have hearlier : s₁.env.options .precompiledDir = .text d := by
    rw [hoptions]
    simp [Options.assign, Options.stored, OptionName.isResolved, Setting.frozen]
  have hunique : s₁.env.options .uniqueDir = .flag false := by
    rw [hoptions]
    simp [Options.assign, Options.stored, OptionName.isResolved, Setting.frozen]
  have hne := ne_empty_of_isAbsolute (isAbsolute_absolute hcwd d)
  refine ⟨?_, fun now => ?_⟩
  · simp [Options.nonempty?, Options.flag, Options.text?, hearlier, htrue, Setting.text?]
  · simp [runDirectory, Options.nonempty?, Options.flag, Options.text?, hunique, houtput, hne,
      Setting.text?, Setting.isTrue]

def later (s : Session) (now : Instant) : Session := s.updateHost fun h => { h with now := now }

/-- What a compile call does that looks for earlier output below its own output root. -/
structure Reruns (s s' : Session) (inputDir : String) (files : List String) (d : String) :
    Prop where
  anyOrder (c : Crew) :
    Turns (crew s.env.tree (files.map (tried s.env.options s.outputRoot d fun _ => false))) c →
      s.env.tree.Same c.1 ∧ (Finished c →
        dirty files (fun _ => false) c = files.filter (renamed s.env.options s.outputRoot d))
  dirty : (filterDirty s.env.options s.outputRoot files none (fun _ => false) s.env.tree).1 =
    files.filter (renamed s.env.options s.outputRoot d)
  starts : ∃ channel started, Launched (s.planFor inputDir files channel)
      (files.filter (renamed s.env.options s.outputRoot d)) s.env started ∧
    s'.env.spawns = s.env.spawns ++ started
  keeps (f l : String) : files.filter (renamed s.env.options s.outputRoot d) = [] → f ∈ files →
    l ∈ s.env.options.targets →
      s'.env.tree.node? (artifactPlace s.env.options s.outputRoot f l) =
        s.env.tree.node? (artifactPlace s.env.options s.outputRoot f l)
  absolute : isAbsolute d = true → place [] d ≠ [] ∨ normalize d = d →
    files.filter (renamed s.env.options s.outputRoot d) = []
  relative : isAbsolute d = false → s.env.options.targets ≠ [] →
    files.filter (renamed s.env.options s.outputRoot d) = files

theorem exists_pass {t : FileTree} {log : List LogEntry} {part : List String}
    (hfind : s.env.tree.findFiles inputDir sourceExtension = .ok files) (hne : files ≠ [])
    (hdirty : filterDirty s.env.options s.outputRoot files none (fun _ => false) s.env.tree =
      (part, ⟨t, log⟩)) (listener : Option PassListener) :
    ∃ channel channels plans log', (s.compileTemplates inputDir listener).2.env =
      (perform (pass (s.planFor inputDir files channel) part)
        { s.env with tree := t, channels := channels, plans := plans, log := log' }).2 := by
  obtain ⟨cs, channel, hcall⟩ := exists_compileTemplates hfind hne listener
  obtain ⟨plans, log', hpass⟩ := compileFrom_pass (s := s.withChannels cs) inputDir channel
    hdirty
  rw [hcall]
  exact ⟨channel, cs, plans, log', (hpass _ _ rfl).1⟩

theorem compileTemplates_nil (hfind : s.env.tree.findFiles inputDir sourceExtension = .ok [])
    (listener : Option PassListener) :
    Spared s.env (s.compileTemplates inputDir listener).2.env ∧
      (s.compileTemplates inputDir listener).2.env.spawns = s.env.spawns := by
  have hfind' : (s.env.openChannel listener).2.tree.findFiles inputDir sourceExtension =
      .ok [] := hfind
  unfold compileTemplates
  dsimp only
  rw [hfind']
  obtain ⟨hspared, -, hspawns⟩ := emit_spared (s.env.openChannel listener).2
    (s.env.openChannel listener).1 none
  exact ⟨⟨hspared.surroundings, hspared.compiler, hspared.options, hspared.contexts,
    hspared.supportSources⟩, hspawns⟩

theorem starts_compileTemplates {t : FileTree} {log : List LogEntry} {part : List String}
    (hfind : s.env.tree.findFiles inputDir sourceExtension = .ok files)
    (hdirty : filterDirty s.env.options s.outputRoot files none (fun _ => false) s.env.tree =
      (part, ⟨t, log⟩)) (hpart : part ⊆ files) (listener : Option PassListener) :
    ∃ channel started, Launched (s.planFor inputDir files channel) part s.env started ∧
      (s.compileTemplates inputDir listener).2.env.spawns = s.env.spawns ++ started := by
  by_cases hne : files = []
  · subst files
    obtain rfl := List.subset_nil.mp hpart
    refine ⟨0, [], launched_nil _ _, ?_⟩
    rw [(compileTemplates_nil hfind listener).2, List.append_nil]
  · obtain ⟨channel, channels, plans, log', henv⟩ := exists_pass hfind hne hdirty listener
    obtain ⟨started, hlaunched, hspawns⟩ := spawns_pass (s.planFor inputDir files channel) part
      { s.env with tree := t, channels := channels, plans := plans, log := log' }
    exact ⟨channel, started, ⟨hlaunched.atMostOne, hlaunched.none_iff, hlaunched.commandLine⟩,
      henv ▸ hspawns⟩

theorem artifactPlace_ne_joined {f : String} {ns : List String} {a root : String} {o : Options}
    (hroot : root ≠ "") (hsource : Located f ns a) (l : String) (ms : List String) (b : String) :
    artifactPlace o root f l ≠ ms ++ [b ++ concatSuffix] := by
  rw [artifactPlace, hsource.eq, place_outputFile hroot hsource.name]
  exact ne_joined_of_hasSuffix (hasSuffix_generated hsource.suffix)

/-- Where its artifacts come from does not matter to a run that finds them in place. -/
theorem reruns_of_delivered (listener : Option PassListener)
    (hcwd : isAbsolute cwd = true) (hstay : s.env.tree.cwd = place [] cwd) (hd : d ≠ "")
    (hroot : s.outputRoot = absolute cwd d)
    (hearlier : s.env.options.nonempty? .precompiledDir = some d) (ht : s.env.tree.Regular)
    (hfind : s.env.tree.findFiles inputDir sourceExtension = .ok files)
    (hthere : ∀ f ∈ files, Delivered s.env.options s.outputRoot s.env.tree f)
    (hbelow : files ≠ [] → ¬ Kept s.env.options → ∀ q c, s.env.tree.node? q = some (.file c) →
      place [] s.outputRoot <+: q → q = place [] s.outputRoot) :
    Reruns s (s.compileTemplates inputDir listener).2 inputDir files d := by
  have hsources : ∀ f ∈ files, ∃ ns a, Located f ns a := fun f hf => exists_source ht hfind hf
  have hstill : Still (files.flatMap (transfers s.env.options s.outputRoot d)) s.env.tree := by
    rw [hroot] at hthere ⊢
    exact still_of_delivered ht.proper hcwd hstay hd hsources hthere
  have hregular := regular_filterDirty s.env.options s.outputRoot files none (fun _ => false) ht
  obtain ⟨hdirty, hsame⟩ := filterDirty_of_still hstill ht.proper hearlier
  cases hrun : filterDirty s.env.options s.outputRoot files none (fun _ => false)
      s.env.tree with
  | mk part progress =>
    obtain ⟨t, log⟩ := progress
    rw [hrun] at hdirty hsame hregular
    dsimp only at hdirty hsame hregular
    subst part
    refine ⟨fun c => dirty_of_turns hstill ht.proper, by rw [hrun],
      starts_compileTemplates hfind hrun List.filter_sublist.subset listener,
      fun f l hclean hf hl => ?_, hroot ▸ filter_renamed_of_absolute cwd,
      hroot ▸ filter_renamed_of_relative hcwd hd⟩
    have hne : files ≠ [] := List.ne_nil_of_mem hf
    obtain ⟨channel, channels, plans, log', henv⟩ := exists_pass hfind hne hrun listener
    obtain ⟨ns, a, hsource⟩ := hsources f hf
    obtain ⟨c, hc⟩ := hthere f hf l hl
    have hstraight : Straight s.outputRoot (place [] s.outputRoot) := by
      rw [hroot]
      exact straight_absolute hcwd d
    rw [henv, hclean, hc]
    exact node?_pass_nil (s.planFor inputDir files channel) hregular hstraight
      (fun hon => hbelow hne hon _ c hc)
      (fun ms b => artifactPlace_ne_joined (ne_empty_of_isAbsolute hstraight.isAbsolute) hsource
        l ms b)
      ((hsame.node? _).trans hc)

theorem erased_of_compileTemplates {listener : Option PassListener}
    (hroot : Straight s.outputRoot (place [] s.outputRoot))
    (hfind : s.env.tree.findFiles inputDir sourceExtension = .ok files)
    (hok : s.compileTemplates inputDir listener = (.ok (), s')) (ht : s'.env.tree.Proper) :
    s'.env.options = s.env.options ∧
      (files ≠ [] → ¬ Kept s.env.options → ∀ q c, s'.env.tree.node? q = some (.file c) →
        place [] s.outputRoot <+: q → q = place [] s.outputRoot) := by
  by_cases hne : files = []
  · subst files
    refine ⟨?_, fun hnot => absurd rfl hnot⟩
    have hstay := (compileTemplates_nil hfind listener).1
    rw [hok] at hstay
    exact hstay.options
  obtain ⟨cs, channel, hcall⟩ := (Returned.found hfind hne hok).exists_compileFrom
  cases hrun : filterDirty s.env.options s.outputRoot files none (fun _ => false)
      s.env.tree with
  | mk part progress =>
    obtain ⟨t, log⟩ := progress
    obtain ⟨plans, log', h₁, h₂, hcompile, hpost, henv⟩ :=
      compileFrom_ok_reusing (s := s.withChannels cs) hrun hcall
    have hfirst := ((works_compileDirty ((s.withChannels cs).planFor inputDir files channel)
      part).perform { (s.withChannels cs).env with
        tree := t, plans := plans, log := log' }).options
    have hrest := ((works_postCompileAll ((s.withChannels cs).planFor inputDir files channel)
      h₁.options.targets).perform h₁).options
    rw [hcompile] at hfirst
    rw [hpost] at hrest
    obtain ⟨-, u, hemit, herase⟩ := conclude_ok henv
    have htold := (tells_emit h₂ channel none).options
    change h₂.emit channel none = (.ok (), u) at hemit
    rw [hemit] at htold
    have hoptions : u.options = s.env.options := htold.trans (hrest.trans hfirst)
    have hkept := options_eraseOutput ((s.withChannels cs).planFor inputDir files channel) u
    rw [herase rfl] at hkept
    refine ⟨hkept.trans hoptions, fun _ hon q c hfile hbelow => ?_⟩
    rw [← hoptions] at hon
    exact eq_root_of_erased (herase rfl) hroot hon ht hfile hbelow

/-- **A second run reuses the first unless it has got another name for where its output goes.** -/
theorem rerun_exact {inputDir' : String} {listener : Option PassListener}
    (hcwd : isAbsolute s.env.surroundings.cwd = true) (hd : d ≠ "")
    (hset : s.setOptions (sharing d) = (.ok (), s₁))
    (hfind : s₁.env.tree.findFiles inputDir sourceExtension = .ok files)
    (hfirst : s₁.compileTemplates inputDir listener = (.ok (), s₂))
    (hleft : ∀ f ∈ files, Delivered s₁.env.options s₁.outputRoot s₂.env.tree f)
    (ht : s₂.env.tree.Regular) (hstay : s₂.env.tree.cwd = place [] s.env.surroundings.cwd)
    (hagain : s₂.env.tree.findFiles inputDir' sourceExtension = .ok files)
    (listener' : Option PassListener) (now : Instant) :
    Reruns (s₂.later now) ((s₂.later now).compileTemplates inputDir' listener').2 inputDir' files
      d := by
  obtain ⟨hearlier, hroots⟩ := setOptions_sharing hcwd hd hset
  have hroot : s₁.outputRoot = absolute s.env.surroundings.cwd d := hroots s₁.env.now
  have hstraight : Straight s₁.outputRoot (place [] s₁.outputRoot) := by
    rw [hroot]
    exact straight_absolute hcwd d
  obtain ⟨hoptions, herased⟩ := erased_of_compileTemplates hstraight hfind hfirst ht.proper
  have hsame : (s₂.later now).env.options = s₁.env.options := hoptions
  have hsecond : (s₂.later now).outputRoot = s₁.outputRoot := by
    change runDirectory s₂.env.options now = _
    rw [hoptions, hroots, hroot]
  refine reruns_of_delivered (s := s₂.later now) listener' hcwd hstay hd (hsecond.trans hroot) ?_ ht
    hagain ?_ ?_
  · rw [hsame]
    exact hearlier
  · rw [hsecond, hsame]
    exact hleft
  · rw [hsecond, hsame]
    exact herased

section Sample

/-- Options by which a relative path names both the output root and where to look for earlier
output. -/
def sharingOptions : Options :=
  (sharing "out").entries.foldl (fun o e => o.assignNamed "/" e.1 e.2) joiningOptions

def sharingSession : Session :=
  joiningSession.updateHost fun h => { h with options := sharingOptions }

def firstRun : Except Problem Unit × Session := sharingSession.compileTemplates "/in" none

theorem firstRun_spec : firstRun.1.isOk = true ∧ firstRun.2.env.tree.wellPlaced = true ∧
    firstRun.2.env.tree.nodes.keys.Nodup ∧
    (∀ p ∈ firstRun.2.env.tree.nodes.keys, ∀ a ∈ p, IsName a) ∧ firstRun.2.env.tree.cwd = [] ∧
    (firstRun.2.env.tree.node? ["in"]).any Node.isDirectory = true ∧
    (firstRun.2.env.tree.node? ["in", "views"]).any Node.isDirectory = true ∧
    (firstRun.2.env.tree.nodes.keys.filterMap (childName? ["in"])).Perm ["a.soy", "views"] ∧
    (firstRun.2.env.tree.nodes.keys.filterMap (childName? ["in", "views"])).Perm ["b.soy"] ∧
    (∀ f ∈ sampleFiles, ∀ l ∈ sharingOptions.targets,
      firstRun.2.env.tree.isFile (outputFile sharingOptions "/out" f (some l)) = true) ∧
    firstRun.2.env.options.targets ≠ [] ∧
    firstRun.2.env.options.flag .compilerCommand = true := by
  have hfind : (sharingSession.env.openChannel none).2.tree.findFiles "/in" sourceExtension =
      .ok sampleFiles := findFiles_sampleTree
  unfold firstRun compileTemplates
  dsimp only
  rw [hfind]
  decide +kernel

/-- With a relative name both sources are compiled again. -/
theorem rerun_exact_relative :
    ∃ s₂ again : Session, sharingSession.compileTemplates "/in" none = (.ok (), s₂) ∧
      again = s₂.later ⟨2024, 1, 2, 3, 4, 6, 0⟩ ∧
      (filterDirty again.env.options again.outputRoot sampleFiles none (fun _ => false)
        again.env.tree).1 = sampleFiles ∧
      ∃ x, (again.compileTemplates "/in" none).2.env.spawns = again.env.spawns ++ [x] := by
  obtain ⟨hok, hplaced, hnodup, hnames, hcwd, hdir, hviews, hchildren, hbelow, hfiles, htargets,
    hcommand⟩ := firstRun_spec
  have hproper := proper_of_wellPlaced hplaced
  have hfirst : sharingSession.compileTemplates "/in" none = (.ok (), firstRun.2) :=
    Prod.ext (ok_of_isOk hok) rfl
  have hroot : sharingSession.outputRoot = "/out" := by decide
  have hleft : ∀ f ∈ sampleFiles, Delivered sharingSession.env.options sharingSession.outputRoot
      firstRun.2.env.tree f := by
    intro f hf l hl
    obtain ⟨c, hc⟩ := isFile_iff.mp (hfiles f hf l hl)
    have hthere := ((transfer sharingOptions "/out" "/out" f l).content_target hproper).mp hc
    rw [goal_transfer (by decide)] at hthere
    rw [hroot]
    exact ⟨c, hthere⟩
  have hset : joiningSession.setOptions (sharing "out") = (.ok (), sharingSession) := rfl
  have hreruns := rerun_exact (by decide) (by decide) hset findFiles_sampleTree hfirst hleft
    (hproper.regular hnodup hnames) hcwd
    (findFiles_of_children (hproper.regular hnodup hnames) (directory_of_any hdir)
      (directory_of_any hviews) hchildren hbelow) none
    ⟨2024, 1, 2, 3, 4, 6, 0⟩
  have hall := hreruns.relative (by decide) htargets
  obtain ⟨channel, started, hlaunched, hspawns⟩ := hreruns.starts
  rw [hall] at hlaunched
  have hstarted : started ≠ [] := by
    intro hnone
    rcases hlaunched.none_iff.mp hnone with hclean | ⟨hunset, -⟩
    · cases hclean
    · cases hcommand.symm.trans hunset
  obtain ⟨x, rfl⟩ : ∃ x, started = [x] :=
    List.length_eq_one_iff.mp (le_antisymm hlaunched.atMostOne (List.length_pos_iff.mpr hstarted))
  exact ⟨firstRun.2, _, hfirst, rfl, hreruns.dirty.trans hall, x, hspawns⟩

end Sample

end Session

end TemplateHost
