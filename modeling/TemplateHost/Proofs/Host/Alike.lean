import TemplateHost.Proofs.Files.Tree
import TemplateHost.Proofs.Host.Stage

/-!
# Hosts that look alike

What follows the compiler in a pass reads neither where reuse looks, nor which compilers were
started, nor the log. Hosts that differ in nothing else do the same from there on, however their
files came about.
-/
namespace TemplateHost

namespace Options
variable (o : Options) (s : Setting)

theorem flag_set_ne {n m : OptionName} (h : m ≠ n) : (o.set n s).flag m = o.flag m := by
  unfold flag
  rw [set_ne o h]

theorem text_set_ne {n m : OptionName} (h : m ≠ n) : (o.set n s).text m = o.text m := by
  unfold text text?
  rw [set_ne o h]

theorem texts_set_ne {n m : OptionName} (h : m ≠ n) : (o.set n s).texts m = o.texts m := by
  unfold texts
  rw [set_ne o h]

end Options

namespace Layout

theorem outputFile_set_earlier (o : Options) (s : Setting) (root file : String)
    (locale : Option String) :
    outputFile (o.set .precompiledDir s) root file locale = outputFile o root file locale := rfl

theorem concatFile_set_earlier (o : Options) (s : Setting) (root : String)
    (locale : Option String) :
    concatFile (o.set .precompiledDir s) root locale = concatFile o root locale := rfl

end Layout

theorem Invocation.arguments_set_earlier (o : Options) (s : Setting) (root : String)
    (files : List String) :
    arguments (o.set .precompiledDir s) root files = arguments o root files := rfl

namespace Host

/-- The second host has started these compilers. -/
inductive Alike (spawns : List Spawn) (h : Host) : Host → Prop where
  | intro {t : FileTree} (s : Setting) (log : List LogEntry) (ht : h.tree.Same t) :
      Alike spawns h
        { h with
          tree := t, options := h.options.set .precompiledDir s, spawns := spawns, log := log }

/-- The same result, and hosts that look alike. -/
def Agree {α : Type} (spawns : List Spawn) (x y : α × Host) : Prop :=
  y.1 = x.1 ∧ Alike spawns x.2 y.2

variable {spawns : List Spawn} {h h' : Host}

theorem Alike.spawns_eq (ha : Alike spawns h h') : h'.spawns = spawns := by
  obtain ⟨s, log, ht⟩ := ha
  rfl

theorem Alike.heard (ha : Alike spawns h h') : h'.heard = h.heard := by
  obtain ⟨s, log, ht⟩ := ha
  rfl

theorem Alike.channels (ha : Alike spawns h h') : h'.channels = h.channels := by
  obtain ⟨s, log, ht⟩ := ha
  rfl

theorem Alike.contexts (ha : Alike spawns h h') : h'.contexts = h.contexts := by
  obtain ⟨s, log, ht⟩ := ha
  rfl

theorem Alike.content (ha : Alike spawns h h') (path : String) :
    h'.tree.content path = h.tree.content path := by
  obtain ⟨s, log, ht⟩ := ha
  exact ht.content path

theorem Alike.readSource (ha : Alike spawns h h') (path : String) :
    h'.readSource path = h.readSource path := by
  obtain ⟨s, log, ht⟩ := ha
  unfold Host.readSource
  rw [ht.content]

theorem Alike.fetch (ha : Alike spawns h h') : h'.fetch = h.fetch := by
  funext path
  unfold Host.fetch
  rw [ha.readSource]

theorem Alike.fetchSupport (ha : Alike spawns h h') (path : String) :
    Agree spawns (h.fetchSupport path) (h'.fetchSupport path) := by
  have hread := ha.readSource path
  obtain ⟨s, log, ht⟩ := ha
  unfold Host.fetchSupport
  rw [hread]
  cases h.supportSources.get? path with
  | some source => exact ⟨rfl, s, log, ht⟩
  | none =>
    cases h.readSource path with
    | ok source => exact ⟨rfl, s, log, ht⟩
    | error p => exact ⟨rfl, s, log, ht⟩

theorem Alike.fetchAllSupport (ha : Alike spawns h h') (paths : List String) :
    Agree spawns (Host.fetchAllSupport paths h) (Host.fetchAllSupport paths h') := by
  induction paths generalizing h h' with
  | nil => exact ⟨rfl, ha⟩
  | cons path r ih =>
    obtain ⟨hone, ha₁⟩ := ha.fetchSupport path
    obtain ⟨hrest, ha₂⟩ := ih ha₁
    unfold Host.fetchAllSupport
    dsimp only
    exact ⟨by rw [hone, hrest], ha₂⟩

theorem Alike.onContext {α : Type} (ha : Alike spawns h h') (locale : Option String)
    (f : Context → α × Context) :
    Agree spawns (h.onContext locale f) (h'.onContext locale f) := by
  obtain ⟨s, log, ht⟩ := ha
  exact ⟨rfl, s, log, ht⟩

theorem Alike.hear (ha : Alike spawns h h') (error : Option Problem) (l : PassListener) :
    Alike spawns (h.hear error l).2 (h'.hear error l).2 := by
  obtain ⟨s, log, ht⟩ := ha
  cases l with
  | logger => exact ⟨s, _, ht⟩
  | recorder | cancelling => exact ⟨s, log, ht⟩
  | failing => exact ⟨s, _, ht⟩

theorem Alike.modifyChannels (ha : Alike spawns h h')
    (f : List (Channel PassListener Problem) → List (Channel PassListener Problem)) :
    Alike spawns { h with channels := f h.channels } { h' with channels := f h'.channels } := by
  obtain ⟨s, log, ht⟩ := ha
  exact ⟨s, log, ht⟩

theorem Alike.emit (ha : Alike spawns h h') (k : ChannelId) (error : Option Problem) :
    Agree spawns (h.emit k error) (h'.emit k error) :=
  emit_congr (R := Alike spawns) Alike.channels (fun l ha => ha.hear error l)
    (fun f ha => ha.modifyChannels fun cs => cs.modify k f) ha

end Host

namespace Stage
open Host
variable {spawns : List Spawn} {α β : Type}

/-- Two stages that do the same on hosts that look alike. -/
def Agree (spawns : List Spawn) (m m' : Stage α) : Prop :=
  ∀ h h', Alike spawns h h' → Host.Agree spawns (perform m h) (perform m' h')

variable {m m' : Stage α} {f f' : α → Stage β}

theorem agree_pure (a : α) : Agree spawns (pure a) (pure a) := fun _ _ ha => ⟨rfl, ha⟩

theorem agree_throw (p : Problem) : Agree spawns (throw p : Stage α) (throw p) :=
  fun _ _ ha => ⟨rfl, ha⟩

theorem agree_pause : Agree spawns pause pause := fun _ _ ha => ⟨rfl, ha⟩

theorem Agree.bind (hm : Agree spawns m m') (hf : ∀ a, Agree spawns (f a) (f' a)) :
    Agree spawns (m >>= f) (m' >>= f') := by
  intro h h' ha
  obtain ⟨hr, ha₁⟩ := hm h h' ha
  rw [perform_bind, perform_bind]
  cases hrun : perform m h with
  | mk r h₁ =>
    cases hrun' : perform m' h' with
    | mk r' h₁' =>
      rw [hrun, hrun'] at hr ha₁
      obtain rfl : r' = r := hr
      cases r' with
      | ok a => exact hf a h₁ h₁' ha₁
      | error p => exact ⟨rfl, ha₁⟩

theorem agree_host_bind {f f' : Host → Stage β}
    (hf : ∀ h h', Alike spawns h h' → Agree spawns (f h) (f' h')) :
    Agree spawns (host >>= f) (host >>= f') := by
  intro h h' ha
  rw [perform_bind, perform_bind]
  exact hf h h' ha h h' ha

theorem agree_attempt {f f' : Host → Except Problem α × Host}
    (hf : ∀ h h', Alike spawns h h' → Host.Agree spawns (f h) (f' h')) :
    Agree spawns (attempt f) (attempt f') := hf

end Stage

namespace Pipeline
open Host Stage
variable {spawns : List Spawn} {h h' : Host}

theorem agree_writeConcat (ha : Alike spawns h h') (target : String) (source : Source) :
    Host.Agree spawns (writeConcat target source h) (writeConcat target source h') := by
  obtain ⟨s, log, ht⟩ := ha
  unfold writeConcat
  rcases ht.write (Path.tidy target) (Content.ofSource source) with
    ⟨t₁, t₂, hw, hw', ht'⟩ | ⟨kind, hw, hw'⟩
  · rw [hw, hw']
    exact ⟨rfl, s, log, ht'⟩
  · rw [hw, hw']
    exact ⟨rfl, s, log, ht⟩

theorem agree_report {α : Type} (ha : Alike spawns h h') (a : α) (entries : List LogEntry) :
    Host.Agree spawns (a, h.report entries) (a, h'.report entries) := by
  obtain ⟨s, log, ht⟩ := ha
  exact ⟨rfl, s, _, ht⟩

theorem agree_concatInto (ha : Alike spawns h h') (paths : List String) (target : String) :
    Host.Agree spawns (concatInto paths target h) (concatInto paths target h') := by
  have hreads : readAll h' paths = readAll h paths := by
    have hread : h'.readSource = h.readSource := funext ha.readSource
    unfold readAll
    rw [hread]
  unfold concatInto
  rw [hreads]
  cases readAll h paths with
  | error p =>
    cases p with
    | file e => exact agree_report ha _ _
    | failure | fault | undecodable | cancelled => exact ⟨rfl, ha⟩
  | ok source =>
    obtain ⟨hr, ha₁⟩ := agree_writeConcat ha target source
    dsimp only
    cases hw : writeConcat target source h with
    | mk r h₁ =>
      cases hw' : writeConcat target source h' with
      | mk r' h₁' =>
        rw [hw, hw'] at hr ha₁
        obtain rfl : r' = r := hr
        cases r' with
        | ok _ => exact ⟨rfl, ha₁⟩
        | error p =>
          cases p with
          | file e => exact agree_report ha₁ _ _
          | failure | fault | undecodable | cancelled => exact ⟨rfl, ha₁⟩

theorem agree_concat (plan : Plan) (paths : List String) (locale : String) :
    Stage.Agree spawns (concat plan paths locale) (concat plan paths locale) := by
  unfold concat
  refine agree_host_bind fun h h' ha => ?_
  obtain ⟨s, log, ht⟩ := ha
  rw [Options.flag_set_ne _ _ (by decide), Layout.concatFile_set_earlier]
  by_cases hoff : (!h.options.flag .concatOutput) = true
  · rw [if_pos hoff]
    exact agree_pure ()
  · rw [if_neg hoff]
    have hinto : Stage.Agree spawns (ExceptT.lift (Flow.atomic (concatInto paths
        (Layout.concatFile h.options plan.outputDir (some locale))))) (ExceptT.lift (Flow.atomic
          (concatInto paths (Layout.concatFile h.options plan.outputDir (some locale))))) := by
      intro h₁ h₁' ha
      obtain ⟨hr, ha₁⟩ := agree_concatInto ha paths
        (Layout.concatFile h.options plan.outputDir (some locale))
      exact ⟨congrArg Except.ok hr, ha₁⟩
    refine hinto.bind fun r => agree_pause.bind fun _ => ?_
    cases r with
    | ok _ => exact agree_pure ()
    | error p => exact agree_throw p

theorem agree_fetchBatch (paths : List String) :
    Stage.Agree spawns (fetchBatch paths) (fetchBatch paths) := by
  unfold fetchBatch
  refine agree_host_bind fun h h' ha => ?_
  have hfetch := ha.fetch
  obtain ⟨s, log, ht⟩ := ha
  dsimp only
  rw [Options.texts_set_ne _ _ (by decide), hfetch]
  by_cases hnone : (!(h.options.texts .contextPaths ++ paths).isEmpty) = true
  · rw [if_pos hnone]
    exact agree_pause.bind fun _ => agree_pure _
  · rw [if_neg hnone]
    exact agree_pure _

theorem agree_onContext (locale : String) (f : Context → Except Failure Unit × Context) :
    Stage.Agree spawns (onContext locale f) (onContext locale f) := by
  refine agree_attempt fun h h' ha => ?_
  obtain ⟨hr, ha₁⟩ := ha.onContext (some locale) f
  dsimp only
  rw [hr]
  exact ⟨rfl, ha₁⟩

theorem agree_prepare (locale : String) : Stage.Agree spawns (prepare locale) (prepare locale) := by
  unfold prepare
  refine agree_host_bind fun h h' ha => ?_
  have hcontext : h'.context (some locale) = h.context (some locale) := by
    unfold Host.context
    rw [ha.contexts]
  rw [hcontext]
  by_cases hinit : (h.context (some locale)).initialized = true
  · rw [if_pos hinit]
    exact agree_onContext locale _
  · rw [if_neg hinit]
    refine Agree.bind (agree_attempt fun h₁ h₁' ha₁ => ?_) fun fetched =>
      agree_pause.bind fun _ => agree_onContext locale _
    have hpaths : h₁'.supportPaths = h₁.supportPaths := by
      obtain ⟨s, log, ht⟩ := ha₁
      unfold Host.supportPaths
      rw [Options.text_set_ne _ _ (by decide)]
    obtain ⟨hr, ha₂⟩ := ha₁.fetchAllSupport h₁.supportPaths
    dsimp only
    rw [hpaths, hr]
    exact ⟨rfl, ha₂⟩

theorem agree_load (locale : String) (paths : List String) :
    Stage.Agree spawns (load locale paths) (load locale paths) := by
  unfold load
  exact (agree_prepare locale).bind fun _ => (agree_fetchBatch paths).bind fun batch =>
    agree_onContext locale _

theorem agree_postCompile (plan : Plan) (locale : String) :
    Stage.Agree spawns (postCompile plan locale) (postCompile plan locale) := by
  unfold postCompile
  refine agree_host_bind fun h h' ha => ?_
  obtain ⟨s, log, ht⟩ := ha
  simp only [Layout.outputFile_set_earlier]
  refine (agree_concat plan _ locale).bind fun _ => agree_host_bind fun h₁ h₁' ha₁ => ?_
  obtain ⟨s₁, log₁, ht₁⟩ := ha₁
  unfold Host.loading
  rw [Options.flag_set_ne _ _ (by decide)]
  by_cases hon : h₁.options.flag .loadCompiledTemplates = true
  · rw [if_pos hon]
    exact agree_load locale _
  · rw [if_neg hon]
    exact agree_pure ()

/-- What a pass does after the compiler does not depend on how the files came about. -/
theorem agree_postCompileAll (plan : Plan) (locales : List String) :
    Stage.Agree spawns (postCompileAll plan locales) (postCompileAll plan locales) := by
  induction locales with
  | nil => exact agree_pure ()
  | cons locale r ih =>
    unfold postCompileAll
    exact (agree_postCompile plan locale).bind fun _ => ih

theorem agree_eraseOutput (ha : Alike spawns h h') (plan : Plan) :
    Host.Agree spawns (eraseOutput plan h) (eraseOutput plan h') := by
  obtain ⟨s, log, ht⟩ := ha
  unfold eraseOutput
  dsimp only
  rw [Options.flag_set_ne _ _ (by decide), Options.flag_set_ne _ _ (by decide)]
  by_cases hkeep : (!h.options.flag .eraseTemporaryFiles ||
      h.options.flag .allowDynamicRecompile) = true
  · rw [if_pos hkeep, if_pos hkeep]
    exact ⟨rfl, s, log, ht⟩
  · rw [if_neg hkeep, if_neg hkeep]
    by_cases hnull : Path.hasNull plan.outputDir = true
    · rw [if_pos hnull, if_pos hnull]
      exact ⟨rfl, s, log, ht⟩
    · rw [if_neg hnull, if_neg hnull]
      rcases ht.removeTree plan.outputDir with ⟨t₁, t₂, hr, hr', ht'⟩ | ⟨kind, hr, hr'⟩
      · rw [hr, hr']
        exact ⟨rfl, s, log, ht'⟩
      · rw [hr, hr']
        exact ⟨rfl, s, _, ht⟩

theorem agree_conclude (ha : Alike spawns h h') (plan : Plan) (error : Option Problem) :
    Host.Agree spawns (conclude plan error h) (conclude plan error h') := by
  obtain ⟨hresult, hafter⟩ := ha.emit plan.channel error
  unfold conclude
  generalize h'.emit plan.channel error = emitted' at hresult hafter ⊢
  generalize h.emit plan.channel error = emitted at hresult hafter ⊢
  obtain ⟨q', t'⟩ := emitted'
  obtain ⟨q, t⟩ := emitted
  dsimp only at hresult
  subst hresult
  cases q' with
  | error p => exact ⟨rfl, hafter⟩
  | ok =>
    cases error with
    | some p => exact ⟨rfl, hafter⟩
    | none =>
      obtain ⟨hresult, herased⟩ := agree_eraseOutput hafter plan
      exact ⟨congrArg (Except.map _) hresult, herased⟩

/-- Passes whose compilers left what looks alike end alike. -/
theorem pass_alike {plan : Plan} {dirty : List String} {h₁ h₁' h₂ : Host}
    (hcompile : perform (compileDirty plan dirty) h' = (.ok (), h₁')) (ha : Alike spawns h₁ h₁')
    (hpost : perform (postCompileAll plan h₁.options.targets) h₁ = (.ok (), h₂)) :
    Host.Agree spawns (conclude plan none h₂) (perform (pass plan dirty) h') := by
  obtain ⟨hresult, ha₂⟩ := agree_postCompileAll plan h₁.options.targets h₁ _ ha
  have htargets : h₁'.options.targets = h₁.options.targets := by
    obtain ⟨s, log, ht⟩ := ha
    rfl
  rw [hpost] at hresult ha₂
  cases hpost' : perform (postCompileAll plan h₁.options.targets) h₁' with
  | mk r h₂' =>
    rw [hpost'] at hresult ha₂
    obtain rfl : r = .ok () := hresult
    rw [← htargets] at hpost'
    rw [perform_pass hcompile hpost']
    exact agree_conclude ha₂ plan none

end Pipeline

end TemplateHost
