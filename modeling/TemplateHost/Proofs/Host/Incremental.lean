import TemplateHost.Proofs.Host.Alike
import TemplateHost.Proofs.Host.Call
import TemplateHost.Proofs.Host.Compilation

/-!
# Incremental compilation

A compile call that reuses output of an earlier run ends as one that compiles everything, and starts
a compiler for the stale sources only.
-/
namespace TemplateHost
open Layout

theorem Options.set_set (o : Options) (n : OptionName) (s s' : Setting) :
    (o.set n s).set n s' = o.set n s' := by
  funext m
  unfold Options.set
  split_ifs <;> rfl

namespace Reuse
variable {o : Options} {root earlierRoot : String} {files : List String}
  {yield : String → String → Option Content} {t : FileTree}

theorem artifacts_set_earlier (x : Setting) :
    artifacts (o.set .precompiledDir x) root yield files = artifacts o root yield files := rfl

theorem stale_set_earlier (x : Setting) :
    stale (o.set .precompiledDir x) earlierRoot t = stale o earlierRoot t := rfl

theorem copies_set_earlier (x : Setting) :
    copies (o.set .precompiledDir x) root earlierRoot yield t = copies o root earlierRoot yield t :=
  rfl

theorem Earlier.set_earlier (he : Earlier o root earlierRoot files yield t) (x : Setting) :
    Earlier (o.set .precompiledDir x) root earlierRoot files yield t := ⟨he.apart, he.exact⟩

theorem mem_copies_or_artifacts (w : Place × Content) :
    w ∈ (files.flatMap fun f => copies o root earlierRoot yield t f o.targets) ++
        artifacts o root yield (files.filter (stale o earlierRoot t)) ↔
      w ∈ artifacts o root yield files := by
  rw [List.mem_append, mem_artifacts, mem_artifacts, List.mem_flatMap]
  constructor
  · rintro (⟨f, hf, hw⟩ | ⟨f, hf, hw⟩)
    · obtain ⟨l, hl, hw⟩ := List.mem_filterMap.mp hw
      obtain ⟨c, hc, hw⟩ := Option.map_eq_some_iff.mp hw
      exact ⟨f, hf, l, (List.mem_filter.mp hl).1, c, hc, hw.symm⟩
    · exact ⟨f, (List.mem_filter.mp hf).1, hw⟩
  · rintro ⟨f, hf, l, hl, c, hc, rfl⟩
    by_cases hs : stale o earlierRoot t f = true
    · exact Or.inr ⟨f, List.mem_filter.mpr ⟨hf, hs⟩, l, hl, c, hc, rfl⟩
    · refine Or.inl ⟨f, hf, List.mem_filterMap.mpr ⟨l, List.mem_filter.mpr ⟨hl, ?_⟩, ?_⟩⟩
      · have hnone := List.any_eq_false.mp (Bool.eq_false_iff.mpr hs) l hl
        simpa using hnone
      · rw [artifact, hc]
        rfl

end Reuse

/-- The compilers that are started for what is dirty. -/
def Invocation.Launched (o : Options) (root inputDir : String) (dirty : List String)
    (launched : List Spawn) : Prop :=
  (dirty = [] → launched = []) ∧
  (dirty ≠ [] → ∃ start, launcher o = .ok start ∧
    launched = [⟨start ++ flags o root ++ dirty, inputDir⟩])

namespace Compiler.Separate
open Stage Pipeline
variable {o : Options} {x x' : Setting} {plan : Plan} {files part : List String}
  {yield : String → String → Option Content} {h h₁ : Host} {ws : List (Place × Content)}

theorem all (hsep : h.compiler.Separate o plan.outputDir plan.inputDir files yield h.tree)
    (ho : h.options = o.set .precompiledDir x)
    (hok : perform (compileDirty plan files) h = (.ok (), h₁)) :
    h.tree.Placed (artifacts o plan.outputDir yield files) h₁.tree ∧
      h₁ = { h with tree := h₁.tree, spawns := h₁.spawns } := by
  rcases compileDirty_ok hok with ⟨rfl, rfl⟩ | ⟨args, exit, t, hne, hargs, hrun, hexit, rfl⟩
  · exact ⟨FileTree.placed_nil _, rfl⟩
  · rw [ho, Invocation.arguments_set_earlier] at hargs
    obtain ⟨exit', t₂, hrun', -, hplaced⟩ := hsep args exit t hargs hrun hexit files args [] h.tree
      (List.Sublist.refl files) hne hargs (List.nil_subset _) (FileTree.placed_nil _)
    rw [hrun] at hrun'
    obtain ⟨-, rfl⟩ := Prod.mk.inj (Except.ok.inj hrun')
    exact ⟨hplaced, rfl⟩

theorem sublist (hsep : h.compiler.Separate o plan.outputDir plan.inputDir files yield h.tree)
    (ho : h.options = o.set .precompiledDir x)
    (hok : perform (compileDirty plan files) h = (.ok (), h₁)) (h' : Host)
    (hc : h'.compiler = h.compiler) (ho' : h'.options = o.set .precompiledDir x')
    (hpart : part.Sublist files)
    (hws : ws ⊆ artifacts o plan.outputDir yield files) (hp : h.tree.Placed ws h'.tree) :
    ∃ t launched, perform (compileDirty plan part) h' =
        (.ok (), { h' with tree := t, spawns := h'.spawns ++ launched }) ∧
      h'.tree.Placed (artifacts o plan.outputDir yield part) t ∧
      Invocation.Launched o plan.outputDir plan.inputDir part launched := by
  by_cases hnone : part = []
  · subst part
    refine ⟨h'.tree, [], ?_, FileTree.placed_nil _, fun _ => rfl, fun hne => absurd rfl hne⟩
    rw [perform_compileDirty_nil, List.append_nil]
  · rcases compileDirty_ok hok with ⟨rfl, -⟩ | ⟨args, exit, t, -, hargs, hrun, hexit, -⟩
    · exact absurd (List.sublist_nil.mp hpart) hnone
    · rw [ho, Invocation.arguments_set_earlier] at hargs
      obtain ⟨start, hstart, -⟩ := Invocation.exists_arguments hargs
      have hargs' := Invocation.arguments_of_launcher hstart plan.outputDir part
      obtain ⟨exit', t₂, hrun', hexit', hplaced⟩ := hsep args exit t hargs hrun hexit part _ ws
        h'.tree hpart hnone hargs' hws hp
      rw [← hc] at hrun'
      rw [← Invocation.arguments_set_earlier o x', ← ho'] at hargs'
      exact ⟨t₂, _, perform_compileDirty hnone hargs' hrun' hexit', hplaced,
        fun hempty => absurd hempty hnone, fun _ => ⟨start, hstart, rfl⟩⟩

end Compiler.Separate

namespace Session
open Host Stage Pipeline Reuse Invocation

variable {s : Session} {inputDir : String} {files : List String} {channel : ChannelId}

/-- What a call that reuses output has in common with one that compiles everything. -/
structure Matches (full reused : Session) : Prop where
  watch : reused.watch = full.watch
  heard : reused.env.heard = full.env.heard
  channels : reused.env.channels = full.env.channels
  contexts : reused.env.contexts = full.env.contexts
  files (path : String) : reused.env.tree.content path = full.env.tree.content path

/-- What the compiler makes of the stale sources, beside the copies, looks like what it makes of all
sources. -/
theorem alike_compileDirty {plan : Plan} {yield : String → String → Option Content}
    {earlierRoot : String} {t : FileTree} {log log' : List LogEntry} {h₁ : Host}
    (hsep : s.env.compiler.Separate s.env.options plan.outputDir plan.inputDir files yield
      s.env.tree)
    (hcompile : perform (compileDirty plan files) (s.poised plan .null s.env.tree log) =
      (.ok (), h₁))
    (hcopies : s.env.tree.Placed (files.flatMap fun f =>
      copies s.env.options plan.outputDir earlierRoot yield s.env.tree f s.env.options.targets) t) :
    ∃ h₁' launched, perform
        (compileDirty plan (files.filter (stale s.env.options earlierRoot s.env.tree)))
        (s.poised plan (.text earlierRoot) t log') = (.ok (), h₁') ∧
      Alike (s.env.spawns ++ launched) h₁ h₁' ∧
      Launched s.env.options plan.outputDir plan.inputDir
        (files.filter (stale s.env.options earlierRoot s.env.tree)) launched := by
  have hsep₀ : (s.poised plan .null s.env.tree log).compiler.Separate s.env.options
    plan.outputDir plan.inputDir files yield s.env.tree := hsep
  have hoptions : (s.poised plan (.text earlierRoot) t log').options =
    s.env.options.set .precompiledDir (.text earlierRoot) := rfl
  obtain ⟨hplaced, heq⟩ := hsep₀.all (x := .null) rfl hcompile
  obtain ⟨u, launched, hcompile', hplaced', hlaunched⟩ := hsep₀.sublist (x := .null) rfl hcompile
    (s.poised plan (.text earlierRoot) t log') rfl hoptions
    (List.filter_sublist (p := stale s.env.options earlierRoot s.env.tree))
    (fun w hw => (mem_copies_or_artifacts w).mp (List.mem_append_left _ hw)) hcopies
  have hboth := hcopies.trans hplaced' fun w hw w' hw' =>
    eq_of_place_eq hplaced ((mem_copies_or_artifacts w).mp (List.mem_append_left _ hw))
      ((mem_copies_or_artifacts w').mp (List.mem_append_right _ hw'))
  have hsame : h₁.tree.Same u := hplaced.same hboth fun w => (mem_copies_or_artifacts w).symm
  have hset : s.env.options.set .precompiledDir (.text earlierRoot) =
      h₁.options.set .precompiledDir (.text earlierRoot) := by
    rw [heq]
    exact (Options.set_set _ _ _ _).symm
  refine ⟨_, launched, hcompile', ?_, hlaunched⟩
  rw [heq] at hsame hset ⊢
  unfold poised
  rw [hset]
  exact ⟨_, log', hsame⟩

/-- **Incremental compilation is full compilation.** Only sources of which an artifact is missing
are named on the command line, in order, and without any no compiler is started. -/
theorem compileFrom_incremental {yield : String → String → Option Content} {earlierRoot : String}
    (hcwd : Path.isAbsolute s.env.surroundings.cwd = true)
    (htmp : Path.isAbsolute s.env.surroundings.temporaryDir = true)
    (hopts : s.env.options.Reached s.env.surroundings) (ht : s.env.tree.Proper)
    (hroot : earlierRoot ≠ "")
    (hsep : s.env.compiler.Separate s.env.options (runDirectory s.env.options s.env.now) inputDir
      files yield s.env.tree)
    (he : Earlier s.env.options (runDirectory s.env.options s.env.now) earlierRoot files yield
      s.env.tree)
    (hfull : ((s.lookingIn .null).compileFrom inputDir files channel).1 = .ok ()) :
    ((s.lookingIn (.text earlierRoot)).compileFrom inputDir files channel).1 = .ok () ∧
      Matches ((s.lookingIn .null).compileFrom inputDir files channel).2
        ((s.lookingIn (.text earlierRoot)).compileFrom inputDir files channel).2 ∧
      ∃ launched,
        ((s.lookingIn (.text earlierRoot)).compileFrom inputDir files channel).2.env.spawns =
          s.env.spawns ++ launched ∧
        Launched s.env.options (runDirectory s.env.options s.env.now) inputDir
          (files.filter (stale s.env.options earlierRoot s.env.tree)) launched := by
  have habs := isAbsolute_runDirectory (hopts.rooted hcwd htmp) s.env.now
  have hnone : (s.env.options.set .precompiledDir .null).nonempty? .precompiledDir = none := by
    simp [Options.nonempty?, Options.flag, Setting.isTrue]
  have hsome : (s.env.options.set .precompiledDir (.text earlierRoot)).nonempty? .precompiledDir =
      some earlierRoot := by
    simp [Options.nonempty?, Options.flag, Setting.isTrue, Options.text?, Setting.text?, hroot]
  obtain ⟨log₀, hf⟩ := compileFrom_lookingIn s inputDir channel .null
    (filterDirty_none _ files s.env.tree hnone)
  cases hrun : perform (pass (s.planFor inputDir files channel) files)
      (s.poised (s.planFor inputDir files channel) .null s.env.tree log₀) with
  | mk r h₃ =>
    obtain ⟨hstate, hresult⟩ := hf r h₃ hrun
    obtain rfl := hresult.mp hfull
    obtain ⟨h₁, h₂, hcompile, hpost, hend⟩ := pass_ok hrun
    have hsep₁ : s.env.compiler.Separate s.env.options (s.planFor inputDir files channel).outputDir
      (s.planFor inputDir files channel).inputDir files yield s.env.tree := hsep
    have hsep₀ :
      (s.poised (s.planFor inputDir files channel) .null s.env.tree log₀).compiler.Separate
        s.env.options (s.planFor inputDir files channel).outputDir
        (s.planFor inputDir files channel).inputDir files yield s.env.tree := hsep
    -- What the compiler left can all be put in place, so copies cannot fail.
    obtain ⟨hplaced, -⟩ := hsep₀.all (x := .null) rfl hcompile
    obtain ⟨t, log, hdirty, hcopies⟩ := filterDirty_spec habs ht (he.set_earlier _)
      (by rwa [artifacts_set_earlier]) hsome
    rw [stale_set_earlier] at hdirty
    rw [copies_set_earlier] at hcopies
    obtain ⟨log', hr⟩ := compileFrom_lookingIn s inputDir channel (.text earlierRoot) hdirty
    obtain ⟨h₁', launched, hcompile', halike, hlaunched⟩ :=
      alike_compileDirty hsep₁ hcompile hcopies
    obtain ⟨hpass, ha⟩ := pass_alike hcompile' halike hpost
    rw [hend] at hpass ha
    obtain ⟨hstate', hresult'⟩ := hr _ _ rfl
    rw [hstate, hstate']
    exact ⟨hresult'.mpr hpass, ⟨rfl, ha.heard, ha.channels, ha.contexts, ha.content⟩, launched,
      ha.spawns_eq, hlaunched⟩

section Sample

def sampleOverrides : Table String Setting := .ofList
  [("compiler_command", .list [.text "soyc"]), ("output_dir", .text "/out"),
    ("unique_dir", .flag false)]

def sampleOptions : Options :=
  sampleOverrides.entries.foldl (fun o e => o.assignNamed "/" e.1 e.2) (.initial sampleSurroundings)

/-- Two sources, one of them further below, of which the other was compiled before, and the packaged
support files. -/
def sampleTree : FileTree where
  nodes := ⟨[(["in"], .directory), (["in", "a.soy"], .file [.source (.module [])]),
    (["in", "views"], .directory), (["in", "views", "b.soy"], .file [.source (.module [])]),
    (["pre"], .directory), (["pre", "a.soy.py"], .file (Content.ofModule ⟨"a.soy", []⟩))] ++
      sampleRuntime⟩
  cwd := []

def sampleSession : Session :=
  start { Host.new sampleSurroundings sampleTree ⟨2024, 1, 2, 3, 4, 5, 0⟩ (.ofInt 0) with
    options := sampleOptions } (.table [] .empty)

def sampleFiles : List String := ["a.soy", "views/b.soy"]

theorem mem_sampleFiles {f : String} (hf : f ∈ sampleFiles) :
    f = "a.soy" ∨ f = "views/b.soy" := by
  simpa [sampleFiles] using hf

theorem reached_sampleOptions : sampleOptions.Reached sampleSurroundings := by
  have hknown : Options.unknown? sampleOverrides = none := by decide
  have hmerge : (Options.merge sampleSurroundings.cwd (.initial sampleSurroundings)
      sampleOverrides).2 = sampleOptions := by
    unfold Options.merge
    rw [hknown]
    rfl
  exact hmerge ▸ .merge sampleOverrides .initial

theorem proper_sampleTree : sampleTree.Proper :=
  FileTree.proper_of_wellPlaced (by decide)

theorem fillable_sampleFiles : Fillable sampleOptions "/out" sampleFiles where
  absolute := by decide
  root := plain_of_no_brace (by decide)
  name := by decide
  file f hf := by
    rcases mem_sampleFiles hf with rfl | rfl
    · exact plain_of_no_brace (by decide)
    · exact plain_of_no_brace (by decide)
  locale l hl := by
    obtain rfl : l = "default" := List.mem_singleton.mp hl
    exact ⟨plain_of_no_brace (by decide), by decide⟩

theorem suited_sampleFiles :
    Compilation.Suited "/in" sampleOptions "/out" sampleFiles sampleTree where
  fillable := fillable_sampleFiles
  present := by decide +kernel
  goes := by decide +kernel
  apart := by decide +kernel
  free f hf l hl := by
    have hout : ∀ f ∈ sampleFiles, ∀ l ∈ sampleOptions.targets,
      (artifactPlace sampleOptions "/out" f l).head? = some "out" := by decide +kernel
    exact proper_sampleTree.free_of_none rfl (hout f hf l hl)
  distinct := by decide +kernel

theorem flags_sampleOptions : flags sampleOptions "/out" =
    [outputPatternFlag, outputPattern sampleOptions "/out"] := by decide

theorem separate_sampleFiles :
    Compiler.Separate Compilation.start sampleOptions "/out" "/in" sampleFiles
      (Compilation.yieldOf true sampleOptions sampleTree "/in") sampleTree := by
  refine Compilation.separate_start (fun launch part hlaunch => ?_) suited_sampleFiles
    proper_sampleTree
  obtain rfl : ["soyc"] = launch := Except.ok.inj hlaunch
  rw [flags_sampleOptions]
  rfl

theorem earlier_sampleFiles : Earlier sampleOptions "/out" "/pre" sampleFiles
    (Compilation.yieldOf true sampleOptions sampleTree "/in") sampleTree where
  apart f g l m hf hg hl hm := by
    have hapart : ∀ f ∈ sampleFiles, ∀ g ∈ sampleFiles, ∀ l ∈ sampleOptions.targets,
      ∀ m ∈ sampleOptions.targets,
        Path.place sampleTree.cwd (outputFile sampleOptions "/pre" f (some l)) ≠
          artifactPlace sampleOptions "/out" g m := by decide
    exact hapart f hf g hg l hl m hm
  exact f l c hf hl hc := by
    obtain rfl : l = "default" := List.mem_singleton.mp hl
    rcases mem_sampleFiles hf with rfl | rfl
    · obtain rfl : Content.ofModule ⟨"a.soy", []⟩ = c := Except.ok.inj hc
      rfl
    · cases hc

/-- Only the source that was not compiled before is compiled. -/
theorem compileFrom_incremental_sample :
    ((sampleSession.lookingIn (.text "/pre")).compileFrom "/in" sampleFiles 0).1 = .ok () ∧
      Matches ((sampleSession.lookingIn .null).compileFrom "/in" sampleFiles 0).2
        ((sampleSession.lookingIn (.text "/pre")).compileFrom "/in" sampleFiles 0).2 ∧
      ((sampleSession.lookingIn (.text "/pre")).compileFrom "/in" sampleFiles 0).2.env.spawns =
        [⟨["soyc", outputPatternFlag, outputPattern sampleOptions "/out", "views/b.soy"],
          "/in"⟩] := by
  have hroot : runDirectory sampleSession.env.options sampleSession.env.now = "/out" := by
    decide
  have hstale : sampleFiles.filter (stale sampleOptions "/pre" sampleTree) = ["views/b.soy"] := by
    decide
  have hfull : ((sampleSession.lookingIn .null).compileFrom "/in" sampleFiles 0).1 = .ok () := by
    apply ok_of_isOk
    decide +kernel
  have hsep : Compiler.Separate sampleSession.env.compiler sampleSession.env.options
      (runDirectory sampleSession.env.options sampleSession.env.now) "/in" sampleFiles
      (Compilation.yieldOf true sampleOptions sampleTree "/in") sampleSession.env.tree := by
    rw [hroot]
    exact separate_sampleFiles
  have he : Earlier sampleSession.env.options
      (runDirectory sampleSession.env.options sampleSession.env.now) "/pre" sampleFiles
      (Compilation.yieldOf true sampleOptions sampleTree "/in") sampleSession.env.tree := by
    rw [hroot]
    exact earlier_sampleFiles
  obtain ⟨hresult, hmatches, launched, hspawns, hlaunched⟩ := compileFrom_incremental rfl rfl
    reached_sampleOptions proper_sampleTree (by decide) hsep he hfull
  refine ⟨hresult, hmatches, hspawns.trans ?_⟩
  rw [hroot] at hlaunched
  obtain ⟨launch, hlaunch, rfl⟩ := hlaunched.2 (by
    change sampleFiles.filter (stale sampleOptions "/pre" sampleTree) ≠ []
    rw [hstale]
    decide)
  obtain rfl : ["soyc"] = launch := Except.ok.inj hlaunch
  change [] ++ [Spawn.mk (["soyc"] ++ flags sampleOptions "/out" ++
    sampleFiles.filter (stale sampleOptions "/pre" sampleTree)) "/in"] = _
  rw [hstale, flags_sampleOptions]
  rfl

end Sample

end Session

end TemplateHost
