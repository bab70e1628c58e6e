import TemplateHost.Proofs.Host.Call
import TemplateHost.Proofs.Host.Compilation
import TemplateHost.Proofs.Host.Loading

/-!
# Localization

After a compile call of a new host, the context of each locale holds what a new context holds after
the support code, the context files and the modules that the compiler made of the sources for this
very locale have run in it.
-/
namespace TemplateHost
open Layout TemplateHost.Path

/-- Locales that are set one by one are what is compiled and loaded for. -/
structure Options.Localized (o : Options) (locales : List String) : Prop where
  eq : o .locales = .tuple (locales.map .text)
  nodup : locales.Nodup
  name (l : String) : l ∈ locales → IsName l
  no_comma (l : String) : l ∈ locales → ',' ∉ l.toList
  no_brace (l : String) : l ∈ locales → '\x7b' ∉ l.toList

namespace Options.Localized
variable {o : Options} {locales : List String}

theorem texts_eq (ho : o.Localized locales) : o.texts .locales = locales := by
  unfold Options.texts
  rw [ho.eq]
  change (locales.map Setting.text).filterMap Setting.text? = locales
  rw [List.filterMap_map]
  exact List.filterMap_some

theorem flag_eq (ho : o.Localized locales) : o.flag .locales = !locales.isEmpty := by
  unfold Options.flag
  rw [ho.eq]
  cases locales <;> rfl

theorem no_comma_texts (ho : o.Localized locales) : ∀ l ∈ o.texts .locales, ',' ∉ l.toList := by
  rw [ho.texts_eq]
  exact ho.no_comma

theorem texts_ne_nil (ho : o.Localized locales) (hflag : o.flag .locales = true) :
    o.texts .locales ≠ [] := by
  rw [ho.flag_eq] at hflag
  rw [ho.texts_eq]
  simpa using hflag

theorem targets_eq (ho : o.Localized locales) :
    o.targets = if locales = [] then [defaultLocale] else locales := by
  unfold Options.targets vmTypes
  rw [ho.flag_eq]
  cases locales with
  | nil => rfl
  | cons l r => exact ho.texts_eq

theorem nodup_targets (ho : o.Localized locales) : o.targets.Nodup := by
  rw [ho.targets_eq]
  split
  · exact List.pairwise_singleton _ _
  · exact ho.nodup

theorem targets_ne_nil (ho : o.Localized locales) : o.targets ≠ [] := by
  rw [ho.targets_eq]
  split
  · exact List.cons_ne_nil _ _
  · assumption

theorem plain_target (ho : o.Localized locales) {l : String} (hl : l ∈ o.targets) :
    Plain l ∧ l ≠ "" := by
  rw [ho.targets_eq] at hl
  split at hl
  · rw [List.mem_singleton.mp hl]
    exact ⟨plain_of_no_brace (by decide), by decide⟩
  · exact ⟨plain_of_no_brace (ho.no_brace l hl), (ho.name l hl).ne_empty⟩

end Options.Localized

namespace Host

/-- What runs in a new context for a locale, after the support code: context files, and the modules
that the sources have become. -/
def localeBatch (h : Host) (root : String) (files : List String)
    (yield : String → Option String → Content) (locale : String) : List Context.Fetched :=
  (h.options.texts .contextPaths).map h.fetch ++
    files.map fun f => ⟨outputFile h.options root f (some locale),
      (Content.read (yield f (requested h.options locale))).mapError .undecodable⟩

variable (h : Host) (plan : Plan) (error : Option Problem)

theorem contexts_hear (l : PassListener) : (h.hear error l).2.contexts = h.contexts := by
  cases l <;> rfl

theorem contexts_emit (k : ChannelId) : (h.emit k error).2.contexts = h.contexts :=
  emit_of_hear (R := fun h h' => h'.contexts = h.contexts) (fun _ => rfl)
    (fun h₁ h₂ => h₂.trans h₁) (fun h l => contexts_hear h error l) (fun _ _ => rfl) h

theorem contexts_eraseOutput : (Pipeline.eraseOutput plan h).2.contexts = h.contexts := by
  unfold Pipeline.eraseOutput
  split
  · rfl
  · split
    · rfl
    · cases h.tree.removeTree plan.outputDir <;> rfl

theorem contexts_conclude : (Pipeline.conclude plan error h).2.contexts = h.contexts :=
  Pipeline.conclude_of_emit (R := fun h h' => h'.contexts = h.contexts) (fun h₁ h₂ => h₂.trans h₁)
    (contexts_emit h error plan.channel) fun t => contexts_eraseOutput t plan

end Host

namespace Session
open Host Stage Pipeline Invocation

/-- A compile call has returned without a problem. Its sources were named, or found in a
directory. -/
inductive Returned (s : Session) : String → List String → Session → Prop where
  | named {files : List String} {listener : Option PassListener} {s' : Session}
      (hok : s.compileTemplateFiles files listener = (.ok (), s')) :
      Returned s (s.env.options.text .inputDir) files s'
  | found {inputDir : String} {files : List String} {listener : Option PassListener} {s' : Session}
      (hfind : s.env.tree.findFiles inputDir sourceExtension = .ok files) (hne : files ≠ [])
      (hok : s.compileTemplates inputDir listener = (.ok (), s')) : Returned s inputDir files s'

/-- The files that are there once the compiler has compiled the sources. -/
def Leaves (s : Session) (inputDir : String) (files : List String) (t : FileTree) : Prop :=
  files = [] ∧ t = s.env.tree ∨
  ∃ args exit, files ≠ [] ∧
    arguments s.env.options (runDirectory s.env.options s.env.now) files = .ok args ∧
    s.env.compiler args inputDir s.env.tree = .ok (exit, t) ∧ exit.status = 0

/-- A new host that loads what it compiles for some locales, all of it, and sources that each go
somewhere for each locale. Its compiler does what the command line asks for. -/
structure Localizing (s : Session) (inputDir : String) (files locales : List String)
    (yield : String → Option String → Content) : Prop where
  cwd : isAbsolute s.env.surroundings.cwd = true
  temporary : isAbsolute s.env.surroundings.temporaryDir = true
  reached : s.env.options.Reached s.env.surroundings
  fresh : s.env.contexts = .empty
  loading : s.env.loading = true
  uncached : s.env.options.nonempty? .precompiledDir = none
  localized : s.env.options.Localized locales
  root : Plain (runDirectory s.env.options s.env.now)
  name (f : String) : f ∈ files → IsName (base f)
  file (f : String) : f ∈ files → Plain f
  distinct (f g l m : String) : f ∈ files → g ∈ files → l ∈ s.env.options.targets →
    m ∈ s.env.options.targets →
    artifactPlace s.env.options (runDirectory s.env.options s.env.now) f l =
      artifactPlace s.env.options (runDirectory s.env.options s.env.now) g m → f = g ∧ l = m
  expands (launch : List String) : files ≠ [] → launcher s.env.options = .ok launch →
    s.env.compiler.Expands launch
      (flags s.env.options (runDirectory s.env.options s.env.now) ++ files) inputDir yield
      s.env.tree

/-- Each context is what a new one becomes by running the support code, the context files and the
modules of its locale. -/
def HoldsLocales (s : Session) (files : List String) (yield : String → Option String → Content)
    (t : FileTree) (final : Host) : Prop :=
  ∀ l ∈ s.env.options.targets,
    (Context.new l).load ({ s.env with tree := t } : Host).supportFiles
        (({ s.env with tree := t } : Host).localeBatch (runDirectory s.env.options s.env.now) files
          yield l) = (.ok (), final.context (some l))

variable {s s' : Session} {inputDir : String} {files locales : List String}
  {yield : String → Option String → Content} {t : FileTree}

/-- Channels are not what compiling is about. -/
def withChannels (s : Session) (cs : List (Channel PassListener Problem)) : Session :=
  s.updateHost fun h => { h with channels := cs }

theorem exists_compileTemplates (hfind : s.env.tree.findFiles inputDir sourceExtension = .ok files)
    (hne : files ≠ []) (listener : Option PassListener) :
    ∃ cs channel, s.compileTemplates inputDir listener =
      (s.withChannels cs).compileFrom inputDir files channel := by
  obtain ⟨f, r, rfl⟩ := List.exists_cons_of_ne_nil hne
  have hfind' : (s.env.openChannel listener).2.tree.findFiles inputDir sourceExtension =
      .ok (f :: r) := hfind
  unfold compileTemplates
  dsimp only
  rw [hfind']
  exact ⟨_, _, rfl⟩

theorem Returned.exists_compileFrom (hr : Returned s inputDir files s') :
    ∃ cs channel, (s.withChannels cs).compileFrom inputDir files channel = (.ok (), s') := by
  cases hr with
  | named hok => exact ⟨_, _, hok⟩
  | @found _ _ listener _ hfind hne hok =>
    obtain ⟨cs, channel, hcall⟩ := exists_compileTemplates hfind hne listener
    exact ⟨cs, channel, hcall.symm.trans hok⟩

theorem returned_of_isOk {listener : Option PassListener}
    (hok : (s.compileTemplateFiles files listener).1.isOk = true) :
    Returned s (s.env.options.text .inputDir) files (s.compileTemplateFiles files listener).2 :=
  .named (Prod.ext (ok_of_isOk hok) rfl)

theorem Localizing.fillable (h : Localizing s inputDir files locales yield) :
    Fillable s.env.options (runDirectory s.env.options s.env.now) files :=
  ⟨isAbsolute_runDirectory (h.reached.rooted h.cwd h.temporary) s.env.now, h.root, h.name, h.file,
    fun _ hl => h.localized.plain_target hl⟩

theorem Localizing.read_flags (h : Localizing s inputDir files locales yield) :
    read [none] (flags s.env.options (runDirectory s.env.options s.env.now) ++ files) =
      some ⟨s.env.options.targets.map (requested s.env.options),
        outputPattern s.env.options (runDirectory s.env.options s.env.now), files⟩ := by
  apply Invocation.read_flags
  · exact h.localized.no_comma_texts
  · exact h.localized.texts_ne_nil

theorem Localizing.content (h : Localizing s inputDir files locales yield)
    (hleaves : s.Leaves inputDir files t) : t.cwd = s.env.tree.cwd ∧
      ∀ f ∈ files, ∀ l ∈ s.env.options.targets,
        t.content (tidy (outputFile s.env.options (runDirectory s.env.options s.env.now) f
          (some l))) = .ok (yield f (requested s.env.options l)) := by
  rcases hleaves with ⟨rfl, rfl⟩ | ⟨args, exit, hne, hargs, hrun, hexit⟩
  · exact ⟨rfl, nofun⟩
  · obtain ⟨launch, hlaunch, rfl⟩ := exists_arguments hargs
    rw [List.append_assoc] at hrun
    obtain ⟨hcwd, hall⟩ := h.expands launch hne hlaunch _ exit t h.read_flags hrun hexit
    refine ⟨hcwd, fun f hf l hl => ?_⟩
    have hstraight := h.fillable.straight hf hl inputDir
    obtain ⟨hread, -⟩ := straight_artifactPlace h.fillable.absolute s.env.options f l
    rw [FileTree.content_of_straight t hread.tidy hstraight]
    refine hall f hf _ (List.mem_map_of_mem hl) fun g hg m hm heq => ?_
    obtain ⟨n, hn, rfl⟩ := List.mem_map.mp hm
    have hother := h.fillable.straight hg hn inputDir
    obtain ⟨rfl, rfl⟩ := h.distinct g f n l hg hf hn hl
      ((hother.place _).symm.trans (heq.trans (hstraight.place _)))
    exact ⟨rfl, rfl⟩

theorem Localizing.localeBatch_eq (h : Localizing s inputDir files locales yield)
    (hleaves : s.Leaves inputDir files t) {l : String} (hl : l ∈ s.env.options.targets) :
    (batchPaths s.env (runDirectory s.env.options s.env.now) files l).map
        ({ s.env with tree := t } : Host).fetch =
      ({ s.env with tree := t } : Host).localeBatch (runDirectory s.env.options s.env.now) files
        yield l := by
  obtain ⟨-, hcontent⟩ := h.content hleaves
  unfold batchPaths localeBatch
  rw [List.map_append, List.map_map]
  refine congrArg _ (List.map_congr_left fun f hf => ?_)
  change Context.Fetched.mk _ (({ s.env with tree := t } : Host).readSource _) = _
  unfold readSource
  dsimp only
  rw [hcontent f hf l hl]

/-- Up to loading, a pass does nothing but compile. -/
theorem exists_leaves {cs : List (Channel PassListener Problem)} {channel : ChannelId}
    {plans : List Plan} {log : List LogEntry} {h₁ : Host}
    (hok : perform (compileDirty ((s.withChannels cs).planFor inputDir files channel) files)
      { (s.withChannels cs).env with plans := plans, log := log } = (.ok (), h₁)) :
    ∃ t spawns, s.Leaves inputDir files t ∧
      h₁ = { s.env with
        channels := cs, plans := plans, log := log, tree := t, spawns := spawns } := by
  rcases compileDirty_ok hok with ⟨hnil, rfl⟩ | ⟨args, exit, t, hne, hargs, hrun, hexit, rfl⟩
  · exact ⟨_, _, Or.inl ⟨hnil, rfl⟩, rfl⟩
  · exact ⟨t, _, Or.inr ⟨args, exit, hne, hargs, hrun, hexit⟩, rfl⟩

theorem Localizing.unjoined (h : Localizing s inputDir files locales yield)
    (hunjoined : Unjoined s.env (runDirectory s.env.options s.env.now) files)
    (hleaves : s.Leaves inputDir files t) :
    Unjoined { s.env with tree := t } (runDirectory s.env.options s.env.now) files := by
  intro hflag l hl p hp
  have hne := hunjoined hflag l hl p hp
  unfold readPlace at hne ⊢
  dsimp only
  rwa [(h.content hleaves).1]

theorem Localizing.holdsLocales (h : Localizing s inputDir files locales yield)
    (hunjoined : Unjoined s.env (runDirectory s.env.options s.env.now) files)
    (hleaves : s.Leaves inputDir files t) {channel : ChannelId} {h₁ h₂ : Host}
    (hloading : Loading { s.env with tree := t }
      (loadedPaths { s.env with tree := t } (runDirectory s.env.options s.env.now) files) h₁)
    (hcontexts : h₁.contexts = s.env.contexts)
    (hpost : perform (postCompileAll (s.planFor inputDir files channel) s.env.options.targets) h₁ =
      (.ok (), h₂)) : s.HoldsLocales files yield t h₂ := by
  have hnew : ∀ l ∈ s.env.options.targets,
      l ∈ s.env.options.targets ∧ l ≠ "" ∧ h₁.contexts.get? l = none := fun l hl =>
    ⟨hl, (h.localized.plain_target hl).2, by rw [hcontexts, h.fresh]; rfl⟩
  obtain ⟨-, hload⟩ := postCompileAll_ok (s.planFor inputDir files channel) hloading h.loading
    (h.unjoined hunjoined hleaves) h.localized.nodup_targets hnew hpost
  intro l hl
  rw [← h.localeBatch_eq hleaves hl]
  exact hload l hl

/-- **Compiling localizes.** Each locale's context holds the support code, the context files and
what the compiler made of the sources for the locale, provided that joined files are written
elsewhere. -/
theorem localizes_of_returned (h : Localizing s inputDir files locales yield)
    (hunjoined : Unjoined s.env (runDirectory s.env.options s.env.now) files)
    (hr : Returned s inputDir files s') :
    ∃ t, s.Leaves inputDir files t ∧ s.HoldsLocales files yield t s'.env := by
  obtain ⟨cs, channel, hok⟩ := hr.exists_compileFrom
  obtain ⟨plans, log, h₁, h₂, hcompile, hpost, henv⟩ := compileFrom_ok
    (s := s.withChannels cs) h.uncached hok
  obtain ⟨t, spawns, hleaves, heq⟩ := exists_leaves hcompile
  have hloading : Loading { s.env with tree := t }
      (loadedPaths { s.env with tree := t } (runDirectory s.env.options s.env.now) files) h₁ := by
    rw [heq]
    exact ⟨rfl, rfl, rfl, fun _ _ _ hs => hs, fun _ _ _ hs => hs⟩
  have hcontexts : h₁.contexts = s.env.contexts := by rw [heq]
  have htargets : h₁.options.targets = s.env.options.targets := by rw [heq]
  rw [htargets] at hpost
  have hholds := h.holdsLocales hunjoined hleaves hloading hcontexts hpost
  refine ⟨t, hleaves, fun l hl => ?_⟩
  have hctx : s'.env.context (some l) = h₂.context (some l) := by
    unfold context
    rw [← contexts_conclude h₂ _ none, henv]
  rw [hctx]
  exact hholds l hl

theorem compileTemplates_nothing {directory : String} (listener : Option PassListener)
    (hfind : s.env.tree.findFiles directory sourceExtension = .ok []) :
    (s.compileTemplates directory listener).2.env.contexts = s.env.contexts := by
  have hfind' : (s.env.openChannel listener).2.tree.findFiles directory sourceExtension =
      .ok [] := hfind
  unfold compileTemplates
  dsimp only
  rw [hfind']
  exact contexts_emit _ _ _

theorem not_holdsLocales_of_fresh (h : Localizing s inputDir files locales yield) {final : Host}
    (hfinal : final.contexts = .empty) : ¬ s.HoldsLocales files yield t final := by
  intro hholds
  obtain ⟨l, hl⟩ := List.exists_mem_of_ne_nil _ h.localized.targets_ne_nil
  have hnew : final.context (some l) = .new l :=
    context_of_new final (h.localized.plain_target hl).2 (by rw [hfinal]; rfl)
  have hready := Context.load_initialized (hholds l hl)
  rw [hnew] at hready
  cases hready

section Sample

def greetingSource : TemplateSource :=
  .module [.provide "a" none,
    .template "a.hi" ⟨"a.hi", [.message "hello" [("es", "hola"), ("pt", "ola")]], none, none⟩]

def greetingFiles : List String := ["foo_es.soy.concat"]

def greetingOverrides : Table String Setting := .ofList
  [("compiler_command", .list [.text "soyc"]), ("output_dir", .text "/out"),
    ("unique_dir", .flag false), ("locales", .list [.text "es", .text "pt"]),
    ("concat_output", .flag true)]

def greetingOptions : Options :=
  Options.initial sampleSurroundings
    |>.set .compilerCommand (.tuple [.text "soyc"])
    |>.set .outputDir (.text "/out")
    |>.set .uniqueDir (.flag false)
    |>.set .locales (.tuple [.text "es", .text "pt"])
    |>.set .concatOutput (.flag true)

def greetingTree : FileTree where
  nodes := ⟨[(["foo_es.soy.concat"], .file [.source greetingSource]), (["empty"], .directory)] ++
    sampleRuntime⟩
  cwd := []

/-- A session that joins the greetings of a locale in a file of this name. -/
def greetingSession (name : String) : Session :=
  start { Host.new sampleSurroundings greetingTree ⟨2024, 1, 2, 3, 4, 5, 0⟩ (.ofInt 0) with
    options := greetingOptions.set .concatFileName (.text name) } (.table [] .empty)

def greetingYield (file : String) (locale : Option String) : Content :=
  (Compilation.yieldOf true greetingOptions greetingTree "/" file (localeOrDefault locale)).getD []

theorem reached_greetingOptions : greetingOptions.Reached sampleSurroundings := by
  have hknown : Options.unknown? greetingOverrides = none := by decide
  have hmerge : (Options.merge sampleSurroundings.cwd (.initial sampleSurroundings)
      greetingOverrides).2 = greetingOptions := by
    unfold Options.merge
    rw [hknown]
    rfl
  exact hmerge ▸ .merge greetingOverrides .initial

theorem proper_greetingTree : greetingTree.Proper :=
  FileTree.proper_of_wellPlaced (by decide)

theorem localized_greetingOptions : greetingOptions.Localized ["es", "pt"] where
  eq := rfl
  nodup := by decide
  name := by decide
  no_comma := by decide
  no_brace := by decide

theorem fillable_greetingFiles : Fillable greetingOptions "/out" greetingFiles where
  absolute := by decide
  root := plain_of_no_brace (by decide)
  name := by decide
  file f hf := by
    rw [List.mem_singleton.mp hf]
    exact plain_of_no_brace (by decide)
  locale _ hl := localized_greetingOptions.plain_target hl

theorem suited_greetingFiles :
    Compilation.Suited "/" greetingOptions "/out" greetingFiles greetingTree where
  fillable := fillable_greetingFiles
  present := by decide +kernel
  goes := by decide +kernel
  apart := by decide +kernel
  free f hf l hl := by
    have hout : ∀ f ∈ greetingFiles, ∀ l ∈ greetingOptions.targets,
      (artifactPlace greetingOptions "/out" f l).head? = some "out" := by decide +kernel
    exact proper_greetingTree.free_of_none rfl (hout f hf l hl)
  distinct := by decide +kernel

theorem flags_greetingOptions : flags greetingOptions "/out" =
    ["--locales", "es,pt", outputPatternFlag, outputPattern greetingOptions "/out"] := by
  decide

theorem separate_greetingFiles : Compiler.Separate Compilation.start greetingOptions "/out" "/"
    greetingFiles (Compilation.yieldOf true greetingOptions greetingTree "/") greetingTree := by
  refine Compilation.separate_start (fun launch part hlaunch => ?_) suited_greetingFiles
    proper_greetingTree
  obtain rfl : ["soyc"] = launch := Except.ok.inj hlaunch
  rw [flags_greetingOptions]
  rfl

theorem stock_greeting :
    Compilation.stock greetingTree "/" "foo_es.soy.concat" = greetingSource := rfl

theorem localizing_greeting (name : String) :
    Localizing (greetingSession name) "/" greetingFiles ["es", "pt"] greetingYield where
  cwd := (by decide : isAbsolute "/" = true)
  temporary := (by decide : isAbsolute "/tmp" = true)
  reached := .merge (.ofList [("concat_file_name", .text name)]) reached_greetingOptions
  fresh := rfl
  loading := rfl
  uncached := rfl
  localized := ⟨rfl, localized_greetingOptions.nodup, localized_greetingOptions.name,
    localized_greetingOptions.no_comma, localized_greetingOptions.no_brace⟩
  root := fillable_greetingFiles.root
  name := fillable_greetingFiles.name
  file := fillable_greetingFiles.file
  distinct f g l m hf hg hl hm heq := by
    have heq' : artifactPlace greetingOptions "/out" f l =
      artifactPlace greetingOptions "/out" g m := heq
    apply suited_greetingFiles.distinct f hf l hl g hg m hm
    exact ⟨[], (List.append_nil _).trans heq'⟩
  expands launch hne hlaunch := by
    have hmade : ∀ f ∈ greetingFiles, ∀ l ∈ greetingOptions.targets, ∃ d,
        Compilation.yieldOf true greetingOptions greetingTree "/" f l = some d := by
      intro f hf l _
      rw [List.mem_singleton.mp hf, Compilation.yieldOf, stock_greeting]
      exact ⟨_, rfl⟩
    exact separate_greetingFiles.expands fillable_greetingFiles proper_greetingTree hmade hne
      localized_greetingOptions.no_comma_texts localized_greetingOptions.texts_ne_nil hlaunch

theorem Localizing.nil (h : Localizing s inputDir files locales yield) (directory : String) :
    Localizing s directory [] locales yield :=
  { h with
    name := nofun
    file := nofun
    distinct := nofun
    expands := fun _ hne => absurd rfl hne }

theorem returned_greeting (name : String)
    (hok : ((greetingSession name).compileTemplateFiles greetingFiles none).1.isOk = true) :
    Returned (greetingSession name) "/" greetingFiles
      ((greetingSession name).compileTemplateFiles greetingFiles none).2 := by
  have hdirectory : (greetingSession name).env.options.text .inputDir = "/" := rfl
  rw [← hdirectory]
  exact returned_of_isOk hok

theorem unjoined_greeting : Unjoined (greetingSession "all").env "/out" greetingFiles := by
  have hloaded : (loadedPaths (greetingSession "all").env "/out" greetingFiles).map
      (greetingSession "all").env.readPlace =
        (Support.all.map fun p => ["run", Support.fileName p]) ++
          [["out", "es", "foo_es.soy.concat.py"], ["out", "pt", "foo_es.soy.concat.py"]] := by
    decide
  have hjoined : ((greetingSession "all").env.options.targets.map fun l =>
      (greetingSession "all").env.readPlace
        (concatFile (greetingSession "all").env.options "/out" (some l))) =
        [["out", "all_es.soy.concat.py"], ["out", "all_pt.soy.concat.py"]] := by decide
  intro _ l hl p hp heq
  have hplace := List.mem_map_of_mem (f := (greetingSession "all").env.readPlace) hp
  have hother := List.mem_map_of_mem (f := fun l => (greetingSession "all").env.readPlace
    (concatFile (greetingSession "all").env.options "/out" (some l))) hl
  rw [hloaded, heq] at hplace
  rw [hjoined] at hother
  have hapart : ∀ q ∈ [["out", "all_es.soy.concat.py"], ["out", "all_pt.soy.concat.py"]],
      q ∉ (Support.all.map fun p => ["run", Support.fileName p]) ++
        [["out", "es", "foo_es.soy.concat.py"], ["out", "pt", "foo_es.soy.concat.py"]] := by
    decide
  exact hapart _ hother hplace

/-- Joined files that are written elsewhere do no harm. -/
theorem localizes_greeting : ∃ t, Leaves (greetingSession "all") "/" greetingFiles t ∧
    HoldsLocales (greetingSession "all") greetingFiles greetingYield t
      ((greetingSession "all").compileTemplateFiles greetingFiles none).2.env := by
  have hreturned := returned_greeting "all" (by decide +kernel)
  exact localizes_of_returned (localizing_greeting "all") unjoined_greeting hreturned

def greetingArguments : List String :=
  ["soyc", "--locales", "es,pt", outputPatternFlag, outputPattern greetingOptions "/out"] ++
    greetingFiles

def greetingOutput : FileTree :=
  ((Compilation.start greetingArguments "/" greetingTree).toOption.map (·.2)).getD greetingTree

def greetingIn (c : Context) : Option String := (c.render true "a.hi" .null .null).1.toOption

theorem leaves_greeting {name : String}
    (hleaves : Leaves (greetingSession name) "/" greetingFiles t) : t = greetingOutput := by
  have hcompiler : (greetingSession name).env.compiler = Compilation.start := rfl
  have htree : (greetingSession name).env.tree = greetingTree := rfl
  have hroot : runDirectory (greetingSession name).env.options (greetingSession name).env.now =
      "/out" := rfl
  have hoptions : (greetingSession name).env.options =
      greetingOptions.set .concatFileName (.text name) := rfl
  have hset (o : Options) : flags (o.set .concatFileName (.text name)) = flags o := rfl
  obtain ⟨hnil, -⟩ | ⟨args, exit, -, hargs, hrun, -⟩ := hleaves
  · cases hnil
  · rw [hroot] at hargs
    obtain ⟨launch, hlaunch, heq⟩ := exists_arguments hargs
    obtain rfl : ["soyc"] = launch := Except.ok.inj hlaunch
    rw [hoptions, hset, flags_greetingOptions] at heq
    have hgreeting : args = greetingArguments := heq
    rw [hcompiler, htree, hgreeting] at hrun
    rw [greetingOutput, hrun]
    rfl

theorem not_holdsLocales_greeting {final : Host}
    (hleaves : Leaves (greetingSession "pt/foo") "/" greetingFiles t)
    (hfinal : greetingIn (final.context (some "pt")) = some "hola") :
    ¬ HoldsLocales (greetingSession "pt/foo") greetingFiles greetingYield t final := by
  have hmade : greetingIn ((Context.new "pt").load
      ({ (greetingSession "pt/foo").env with tree := greetingOutput } : Host).supportFiles
      (({ (greetingSession "pt/foo").env with tree := greetingOutput } : Host).localeBatch
        (runDirectory (greetingSession "pt/foo").env.options (greetingSession "pt/foo").env.now)
        greetingFiles greetingYield "pt")).2 = some "ola" := by decide +kernel
  have htarget : "pt" ∈ (greetingSession "pt/foo").env.options.targets := by decide
  intro hholds
  have hpt := hholds "pt" htarget
  rw [leaves_greeting hleaves] at hpt
  rw [hpt, hfinal] at hmade
  exact absurd hmade (by decide)

theorem joined_greeting :
    ((greetingSession "pt/foo").compileTemplateFiles greetingFiles none).1.isOk = true ∧
      greetingIn (((greetingSession "pt/foo").compileTemplateFiles greetingFiles
        none).2.env.context (some "pt")) = some "hola" := by decide +kernel

theorem findFiles_greeting :
    (greetingSession "all").env.tree.findFiles "/empty" sourceExtension = .ok [] := by
  decide +kernel

/-- Contexts hold something else if a joined file takes the place of a module that is loaded later,
and where there was nothing to compile. -/
theorem localizes_needs :
    (Localizing (greetingSession "pt/foo") "/" greetingFiles ["es", "pt"] greetingYield ∧
      Returned (greetingSession "pt/foo") "/" greetingFiles
        ((greetingSession "pt/foo").compileTemplateFiles greetingFiles none).2 ∧
      ¬ ∃ t, Leaves (greetingSession "pt/foo") "/" greetingFiles t ∧
        HoldsLocales (greetingSession "pt/foo") greetingFiles greetingYield t
          ((greetingSession "pt/foo").compileTemplateFiles greetingFiles none).2.env) ∧
    (Localizing (greetingSession "all") "/empty" [] ["es", "pt"] greetingYield ∧
      (greetingSession "all").env.tree.findFiles "/empty" sourceExtension = .ok [] ∧
      ((greetingSession "all").compileTemplates "/empty" none).1 = .ok () ∧
      ¬ ∃ t, Leaves (greetingSession "all") "/empty" [] t ∧
        HoldsLocales (greetingSession "all") [] greetingYield t
          ((greetingSession "all").compileTemplates "/empty" none).2.env) := by
  obtain ⟨hok, hgreeting⟩ := joined_greeting
  have hempty := (localizing_greeting "all").nil "/empty"
  have hreturn : ((greetingSession "all").compileTemplates "/empty" none).1 = .ok () :=
    ok_of_isOk (by decide +kernel)
  have hcontexts := compileTemplates_nothing none findFiles_greeting
  constructor
  · refine ⟨localizing_greeting "pt/foo", returned_greeting "pt/foo" hok, ?_⟩
    rintro ⟨t, hleaves, hholds⟩
    exact not_holdsLocales_greeting hleaves hgreeting hholds
  · refine ⟨hempty, findFiles_greeting, hreturn, ?_⟩
    rintro ⟨t, -, hholds⟩
    exact not_holdsLocales_of_fresh hempty hcontexts hholds

end Sample

end Session

end TemplateHost
