import TemplateHost.Host.Pipeline
import TemplateHost.Proofs.Flow.Interruption

/-!
# What stages do

Stages start compilers, write joined files, run code in contexts, keep what they have read and log
what went wrong. Nothing else is done between two pauses of a stage, whatever others do meanwhile:
nobody is told how the pass ended, and nothing is erased. Only compiling starts a compiler.
-/
namespace TemplateHost

/-- What listeners leave in the log. -/
def LogEntry.isAnnouncement : LogEntry → Bool
  | .passFailed _ | .passDone | .listenerFailed => true
  | _ => false

namespace Host
variable {h h' h'' : Host}

def announcements (h : Host) : List LogEntry := h.log.filter LogEntry.isAnnouncement

/-- No channel has announced anything, and none has been opened. -/
structure Silent (h h' : Host) : Prop where
  channels : h'.channels = h.channels
  heard : h'.heard = h.heard
  announcements : h'.announcements = h.announcements

theorem Silent.refl (h : Host) : Silent h h := ⟨rfl, rfl, rfl⟩

theorem Silent.trans (h₁ : Silent h h') (h₂ : Silent h' h'') : Silent h h'' :=
  ⟨h₂.channels.trans h₁.channels, h₂.heard.trans h₁.heard,
    h₂.announcements.trans h₁.announcements⟩

theorem announcements_report {log : List LogEntry} (hlog : ∀ e ∈ log, e.isAnnouncement = false)
    (h : Host) : (h.report log).announcements = h.announcements := by
  have hnone : log.filter LogEntry.isAnnouncement = [] :=
    List.filter_eq_nil_iff.mpr fun e he => by simp [hlog e he]
  unfold announcements report
  dsimp only
  rw [List.filter_append, hnone, List.append_nil]

theorem silent_report {log : List LogEntry} (hlog : ∀ e ∈ log, e.isAnnouncement = false)
    (h : Host) : Silent h (h.report log) :=
  ⟨rfl, rfl, announcements_report hlog h⟩

/-- What stages do, step by step. -/
inductive Works : Host → Host → Prop where
  | refl (h : Host) : Works h h
  | trans {h h' h'' : Host} (h₁ : Works h h') (h₂ : Works h' h'') : Works h h''
  | spawn (h : Host) (args : List String) (cwd : String) :
    Works h { h with spawns := h.spawns ++ [⟨args, cwd⟩] }
  | compile {h : Host} {args : List String} {cwd : String} {exit : Compilation.Exit} {t : FileTree}
    (hrun : h.compiler args cwd h.tree = .ok (exit, t)) : Works h { h with tree := t }
  | join {h : Host} {path : String} {c : Content} {t : FileTree}
    (hwrite : h.tree.write path c = .ok t) : Works h { h with tree := t }
  | enter (h : Host) (locale : Option String) (c : Context) : Works h (h.setContext locale c)
  | remember (h : Host) (sources : Table String Source) :
    Works h { h with supportSources := sources }
  | log (h : Host) {e : LogEntry} (he : e.isAnnouncement = false) : Works h (h.report [e])

theorem Works.silent (hw : Works h h') : Silent h h' := by
  induction hw with
  | refl h => exact .refl h
  | trans _ _ ih₁ ih₂ => exact ih₁.trans ih₂
  | log h he => exact silent_report (List.forall_mem_singleton.mpr he) h
  | spawn | compile | join | enter | remember => exact ⟨rfl, rfl, rfl⟩

theorem Works.plans (hw : Works h h') : h'.plans = h.plans := by
  induction hw with
  | trans _ _ ih₁ ih₂ => exact ih₂.trans ih₁
  | refl | spawn | compile | join | enter | remember | log => rfl

theorem Works.options (hw : Works h h') : h'.options = h.options := by
  induction hw with
  | trans _ _ ih₁ ih₂ => exact ih₂.trans ih₁
  | refl | spawn | compile | join | enter | remember | log => rfl

theorem Works.log_grows (hw : Works h h') : h.log <+: h'.log := by
  induction hw with
  | trans _ _ ih₁ ih₂ => exact ih₁.trans ih₂
  | log h => exact List.prefix_append _ _
  | refl | spawn | compile | join | enter | remember => exact List.prefix_rfl

/-- What the stages after compiling do, step by step. -/
inductive Settles : Host → Host → Prop where
  | refl (h : Host) : Settles h h
  | trans {h h' h'' : Host} (h₁ : Settles h h') (h₂ : Settles h' h'') : Settles h h''
  | join {h : Host} {path : String} {c : Content} {t : FileTree}
    (hwrite : h.tree.write path c = .ok t) : Settles h { h with tree := t }
  | enter (h : Host) (locale : Option String) (c : Context) : Settles h (h.setContext locale c)
  | remember (h : Host) (sources : Table String Source) :
    Settles h { h with supportSources := sources }
  | log (h : Host) {e : LogEntry} (he : e.isAnnouncement = false) : Settles h (h.report [e])

theorem Settles.works (hs : Settles h h') : Works h h' := by
  induction hs with
  | refl h => exact .refl h
  | trans _ _ ih₁ ih₂ => exact ih₁.trans ih₂
  | join hwrite => exact .join hwrite
  | enter h locale c => exact .enter h locale c
  | remember h sources => exact .remember h sources
  | log h he => exact .log h he

theorem Settles.spawns (hs : Settles h h') : h'.spawns = h.spawns := by
  induction hs with
  | trans _ _ ih₁ ih₂ => exact ih₂.trans ih₁
  | refl | join | enter | remember | log => rfl

instance : IsPreorder Host Works where
  refl := .refl
  trans _ _ _ := .trans

instance : IsPreorder Host Settles where
  refl := .refl
  trans _ _ _ := .trans

end Host

namespace Stage
open Host
variable {α : Type}

/-- Whatever others do, the stage only does what stages do. -/
def Works (m : Stage α) : Prop := ∀ h, (ExceptT.run m h).Within Host.Works h

end Stage

namespace Pipeline
open TemplateHost.Flow Host Stage
variable {plan : Plan} {dirty paths : List String} {locale : String}

theorem works_compile (args : List String) (cwd : String) (h : Host) :
    Host.Works h (compile args cwd h).2 := by
  have hspawn := Host.Works.spawn h args cwd
  unfold compile
  dsimp only
  cases hrun : h.compiler args cwd h.tree with
  | error e =>
    cases e with
    | refused e => exact hspawn.trans (.log _ rfl)
    | invalid f => exact hspawn
  | ok r =>
    have hleave := hspawn.trans
      (.compile (h := { h with spawns := h.spawns ++ [⟨args, cwd⟩] }) hrun)
    dsimp only
    split
    · exact hleave
    · exact hleave.trans (.log _ rfl)

theorem works_compileDirty (plan : Plan) (dirty : List String) :
    Stage.Works (compileDirty plan dirty) := by
  apply Flow.Within.strides
  unfold compileDirty
  split
  · exact within_pure ()
  · refine within_read.bind fun h => ?_
    cases Invocation.arguments h.options plan.outputDir dirty with
    | error e => exact within_throw _
    | ok args => exact within_attempt (works_compile args plan.inputDir)

theorem settles_concatInto (paths : List String) (target : String) (h : Host) :
    Settles h (concatInto paths target h).2 := by
  unfold concatInto
  cases readAll h paths with
  | error p =>
    dsimp only
    split
    next heq => exact (Prod.mk.inj heq).2 ▸ .log _ rfl
    next => exact .refl h
  | ok s =>
    dsimp only
    unfold writeConcat
    cases hwrite : h.tree.write (Path.tidy target) (Content.ofSource s) with
    | ok t => exact .join hwrite
    | error kind => exact .log h rfl

theorem settles_concat (plan : Plan) (paths : List String) (locale : String) :
    Flow.Within Settles (concat plan paths locale) := by
  unfold concat
  refine within_read.bind fun h => ?_
  split
  · exact within_pure ()
  · refine (within_lift_atomic fun h => settles_concatInto _ _ h).bind fun r =>
      within_pause.bind fun _ => ?_
    cases r with
    | ok u => exact within_pure ()
    | error p => exact within_throw p

theorem settles_onContext (locale : String) (f : Context → Except Failure Unit × Context) :
    Flow.Within Settles (onContext locale f) :=
  within_attempt fun h => .enter h (some locale) _

theorem settles_fetchSupport (path : String) (h : Host) : Settles h (h.fetchSupport path).2 := by
  unfold fetchSupport
  split
  · exact .refl h
  · split
    · exact .remember h _
    · exact .refl h

theorem settles_fetchAllSupport (paths : List String) (h : Host) :
    Settles h (fetchAllSupport paths h).2 := by
  induction paths generalizing h with
  | nil => exact .refl h
  | cons path r ih => exact (settles_fetchSupport path h).trans (ih _)

theorem settles_prepare (locale : String) : Flow.Within Settles (prepare locale) := by
  unfold prepare
  refine within_read.bind fun h => ?_
  split
  · exact settles_onContext _ _
  · exact (within_attempt fun h => settles_fetchAllSupport h.supportPaths h).bind fun fetched =>
      within_pause.bind fun _ => settles_onContext _ _

theorem settles_fetchBatch (paths : List String) : Flow.Within Settles (fetchBatch paths) := by
  unfold fetchBatch
  refine within_read.bind fun h => ?_
  dsimp only
  split
  · exact within_pause.bind fun _ => within_pure _
  · exact within_pure _

theorem settles_load (locale : String) (paths : List String) :
    Flow.Within Settles (load locale paths) :=
  (settles_prepare locale).bind fun _ => (settles_fetchBatch paths).bind fun _ =>
    settles_onContext _ _

theorem settles_postCompile (plan : Plan) (locale : String) :
    Flow.Within Settles (postCompile plan locale) := by
  unfold postCompile
  refine within_read.bind fun h => (settles_concat plan _ locale).bind fun _ =>
    within_read.bind fun h' => ?_
  split
  · exact settles_load _ _
  · exact within_pure ()

theorem settles_postCompileAll (plan : Plan) (locales : List String) :
    Flow.Within Settles (postCompileAll plan locales) := by
  induction locales with
  | nil => exact within_pure ()
  | cons l r ih => exact (settles_postCompile plan l).bind fun _ => ih

theorem works_load (locale : String) (paths : List String) : Stage.Works (load locale paths) :=
  ((settles_load locale paths).mono fun _ _ => Settles.works).strides

theorem works_postCompile (plan : Plan) (locale : String) :
    Stage.Works (postCompile plan locale) :=
  ((settles_postCompile plan locale).mono fun _ _ => Settles.works).strides

theorem works_postCompileAll (plan : Plan) (locales : List String) :
    Stage.Works (postCompileAll plan locales) :=
  ((settles_postCompileAll plan locales).mono fun _ _ => Settles.works).strides

theorem works_stages (plan : Plan) (dirty : List String) : Stage.Works (stages plan dirty) := by
  apply Flow.Within.strides
  exact Within.bind ⟨works_compileDirty plan dirty⟩ fun _ => within_read.bind fun h =>
    ⟨works_postCompileAll plan h.options.targets⟩

end Pipeline

end TemplateHost
