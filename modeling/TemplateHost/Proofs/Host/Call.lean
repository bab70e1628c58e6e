import TemplateHost.Host.Session
import TemplateHost.Proofs.Host.Reuse
import TemplateHost.Proofs.Host.Stage

/-!
# Compile calls

A compile call is a pass over the sources for which no output is reused. Where it looks for output
to reuse is an option like any other.
-/
namespace TemplateHost
open Layout

theorem Options.set_get (o : Options) (n : OptionName) : o.set n (o n) = o := by
  funext m
  unfold Options.set
  split_ifs with h
  · rw [h]
  · rfl

namespace Session
open Host Stage Pipeline Reuse

/-- The session with another place in which to look for earlier output. -/
def lookingIn (s : Session) (earlier : Setting) : Session :=
  s.updateHost fun h => { h with options := h.options.set .precompiledDir earlier }

/-- A session as it stands at the start of a first pass, with files and a place to look for others
that may differ. -/
def poised (s : Session) (plan : Plan) (earlier : Setting) (t : FileTree) (log : List LogEntry) :
    Host :=
  { s.env with
    tree := t
    options := s.env.options.set .precompiledDir earlier
    plans := (s.watchSources plan).env.plans
    log := log }

theorem watchSources_lookingIn (s : Session) (plan : Plan) (earlier : Setting) (t : FileTree)
    (log : List LogEntry) :
    ∃ log', ((s.lookingIn earlier).updateHost fun h => { h with tree := t }.report log).watchSources
      plan = { s.watchSources plan with env := s.poised plan earlier t log' } := by
  unfold watchSources
  have hflag :
      ((s.lookingIn earlier).updateHost fun h => { h with tree := t }.report log).env.options.flag
        .allowDynamicRecompile = s.env.options.flag .allowDynamicRecompile := rfl
  rw [hflag]
  unfold poised watchSources
  by_cases hoff : (!s.env.options.flag .allowDynamicRecompile) = true
  · simp only [hoff]
    exact ⟨_, rfl⟩
  · simp only [hoff]
    exact ⟨_, rfl⟩

def planFor (s : Session) (inputDir : String) (files : List String) (channel : ChannelId) : Plan :=
  ⟨inputDir, runDirectory s.env.options s.env.now, files, channel⟩

variable {s : Session} {inputDir : String} {files dirty : List String} {channel : ChannelId}
  {earlier : Setting} {t : FileTree} {log : List LogEntry}

theorem compileFrom_lookingIn (s : Session) (inputDir : String) (channel : ChannelId)
    (earlier : Setting)
    (hdirty : filterDirty (s.env.options.set .precompiledDir earlier)
      (runDirectory s.env.options s.env.now) files none (fun _ => false) s.env.tree =
        (dirty, ⟨t, log⟩)) :
    ∃ log', ∀ r h, perform (pass (s.planFor inputDir files channel) dirty)
        (s.poised (s.planFor inputDir files channel) earlier t log') = (r, h) →
      ((s.lookingIn earlier).compileFrom inputDir files channel).2 =
          { s.watchSources (s.planFor inputDir files channel) with env := h } ∧
        (((s.lookingIn earlier).compileFrom inputDir files channel).1 = .ok () ↔ r = .ok none) := by
  obtain ⟨log', hwatch⟩ := watchSources_lookingIn s (s.planFor inputDir files channel) earlier t log
  refine ⟨log', fun r h hrun => ?_⟩
  have hprepare : (s.lookingIn earlier).prepareCall inputDir files channel =
      (pass (s.planFor inputDir files channel) dirty,
        { s.watchSources (s.planFor inputDir files channel) with
          env := s.poised (s.planFor inputDir files channel) earlier t log' }) := by
    have hdirty' : filterDirty (s.lookingIn earlier).env.options
        (runDirectory (s.lookingIn earlier).env.options (s.lookingIn earlier).env.now) files none
        (fun _ => false) (s.lookingIn earlier).env.tree = (dirty, ⟨t, log⟩) := hdirty
    unfold prepareCall
    dsimp only
    rw [hdirty']
    exact congrArg (Prod.mk _) hwatch
  have hrun' : Flow.run (ExceptT.run (pass (s.planFor inputDir files channel) dirty))
      (s.poised (s.planFor inputDir files channel) earlier t log') = (r, h) := hrun
  unfold compileFrom
  rw [hprepare]
  dsimp only
  rw [hrun']
  rcases r with p | (_ | p)
  · exact ⟨rfl, by simp [Except.bind]⟩
  · exact ⟨rfl, by simp [Except.bind, raised]⟩
  · exact ⟨rfl, by simp [Except.bind, raised]⟩

theorem lookingIn_get (s : Session) : s.lookingIn (s.env.options .precompiledDir) = s := by
  have hset := Options.set_get s.env.options .precompiledDir
  unfold lookingIn updateHost
  dsimp only
  rw [hset]

theorem compileFrom_pass (inputDir : String) (channel : ChannelId)
    (hdirty : filterDirty s.env.options (runDirectory s.env.options s.env.now) files none
      (fun _ => false) s.env.tree = (dirty, ⟨t, log⟩)) :
    ∃ plans log', ∀ r h, perform (pass (s.planFor inputDir files channel) dirty)
        { s.env with tree := t, plans := plans, log := log' } = (r, h) →
      (s.compileFrom inputDir files channel).2.env = h ∧
        ((s.compileFrom inputDir files channel).1 = .ok () ↔ r = .ok none) := by
  have hset := Options.set_get s.env.options .precompiledDir
  rw [← hset] at hdirty
  obtain ⟨log', hcall⟩ := compileFrom_lookingIn s inputDir channel (s.env.options .precompiledDir)
    hdirty
  rw [lookingIn_get] at hcall
  unfold poised at hcall
  rw [hset] at hcall
  refine ⟨(s.watchSources (s.planFor inputDir files channel)).env.plans, log', fun r h hrun => ?_⟩
  obtain ⟨hstate, hresult⟩ := hcall r h hrun
  exact ⟨congrArg Watch.Loop.env hstate, hresult⟩

/-- A compile call that ends well is a pass over what could not be reused. -/
theorem compileFrom_ok_reusing {s' : Session}
    (hdirty : filterDirty s.env.options (runDirectory s.env.options s.env.now) files none
      (fun _ => false) s.env.tree = (dirty, ⟨t, log⟩))
    (hok : s.compileFrom inputDir files channel = (.ok (), s')) :
    ∃ plans log h₁ h₂, perform (compileDirty (s.planFor inputDir files channel) dirty)
        { s.env with tree := t, plans := plans, log := log } = (.ok (), h₁) ∧
      perform (postCompileAll (s.planFor inputDir files channel) h₁.options.targets) h₁ =
        (.ok (), h₂) ∧
      conclude (s.planFor inputDir files channel) none h₂ = (.ok none, s'.env) := by
  obtain ⟨plans, log', hcall⟩ := compileFrom_pass inputDir channel hdirty
  cases hrun : perform (pass (s.planFor inputDir files channel) dirty)
      { s.env with tree := t, plans := plans, log := log' } with
  | mk r h =>
    obtain ⟨henv, hresult⟩ := hcall r h hrun
    rw [hok] at henv hresult
    obtain rfl := hresult.mp rfl
    obtain ⟨h₁, h₂, hcompile, hpost, hend⟩ := pass_ok hrun
    exact ⟨plans, log', h₁, h₂, hcompile, hpost, henv ▸ hend⟩

theorem compileFrom_ok {s' : Session} (hnone : s.env.options.nonempty? .precompiledDir = none)
    (hok : s.compileFrom inputDir files channel = (.ok (), s')) :
    ∃ plans log h₁ h₂, perform (compileDirty (s.planFor inputDir files channel) files)
        { s.env with plans := plans, log := log } = (.ok (), h₁) ∧
      perform (postCompileAll (s.planFor inputDir files channel) h₁.options.targets) h₁ =
        (.ok (), h₂) ∧
      conclude (s.planFor inputDir files channel) none h₂ = (.ok none, s'.env) :=
  compileFrom_ok_reusing (filterDirty_none _ files s.env.tree hnone) hok

section Sample

theorem ok_of_isOk {r : Except Problem Unit} (h : r.isOk = true) : r = .ok () := by
  cases r with
  | ok u => rfl
  | error p => cases h

def sampleSurroundings : Surroundings := ⟨"/", "/tmp", "/run", none⟩

def sampleRuntime : List (Place × Node) :=
  (["run"], .directory) :: Support.all.map fun p =>
    (["run", Support.fileName p], .file (Content.ofModule (Support.moduleOf p)))

end Sample

end Session

end TemplateHost
