import TemplateHost.Host.Pipeline

/-!
# Running stages

What a stage returns and leaves if nobody interrupts it, from what its parts return and leave.
-/
namespace TemplateHost

namespace Host

section Emit
variable {R : Host → Host → Prop} {k : ChannelId} {error : Option Problem} {h h' : Host}

theorem tell_cons (error : Option Problem) (l : PassListener) (r : List PassListener) (h : Host) :
    tell error (l :: r) h =
      if l = .cancelling then h.hear error l else tell error r (h.hear error l).2 := by
  cases l <;> rfl

theorem emit_of_hear (hrefl : ∀ h, R h h) (htrans : ∀ {h h' h''}, R h h' → R h' h'' → R h h'')
    (hhear : ∀ h l, R h (h.hear error l).2)
    (hmodify : ∀ (h : Host) (f : Channel PassListener Problem → Channel PassListener Problem),
      R h { h with channels := h.channels.modify k f }) (h : Host) : R h (h.emit k error).2 := by
  have htell (ls : List PassListener) (h : Host) : R h (tell error ls h).2 := by
    induction ls generalizing h with
    | nil => exact hrefl h
    | cons l r ih =>
      rw [tell_cons]
      split
      · exact hhear h l
      · exact htrans (hhear h l) (ih _)
  unfold emit
  cases h.channels[k]? with
  | none => exact hrefl h
  | some c =>
    have hold := htrans (hmodify h Channel.beginEmit) (htell c.listeners _)
    dsimp only
    cases htold : tell error c.listeners
        { h with channels := h.channels.modify k Channel.beginEmit } with
    | mk q t =>
      rw [htold] at hold
      cases q with
      | ok => exact htrans hold (hmodify t _)
      | error p => exact hold

theorem emit_congr (hchannels : ∀ {h h' : Host}, R h h' → h'.channels = h.channels)
    (hhear : ∀ {h h'} l, R h h' → R (h.hear error l).2 (h'.hear error l).2)
    (hmodify : ∀ {h h' : Host} (f : Channel PassListener Problem → Channel PassListener Problem),
      R h h' → R { h with channels := h.channels.modify k f }
        { h' with channels := h'.channels.modify k f })
    (hR : R h h') :
    (h'.emit k error).1 = (h.emit k error).1 ∧ R (h.emit k error).2 (h'.emit k error).2 := by
  have htell (ls : List PassListener) {h h' : Host} (hR : R h h') :
      (tell error ls h').1 = (tell error ls h).1 ∧ R (tell error ls h).2 (tell error ls h').2 := by
    induction ls generalizing h h' with
    | nil => exact ⟨rfl, hR⟩
    | cons l r ih =>
      rw [tell_cons, tell_cons]
      by_cases hl : l = .cancelling
      · rw [if_pos hl, if_pos hl, hl]
        exact ⟨rfl, hhear .cancelling hR⟩
      · rw [if_neg hl, if_neg hl]
        exact ih (hhear l hR)
  have hbegin := hmodify Channel.beginEmit hR
  unfold emit
  rw [hchannels hR] at hbegin ⊢
  cases h.channels[k]? with
  | none => exact ⟨rfl, hR⟩
  | some c =>
    obtain ⟨hresult, hafter⟩ := htell c.listeners hbegin
    dsimp only
    generalize tell error c.listeners _ = told' at hresult hafter ⊢
    generalize tell error c.listeners _ = told at hresult hafter ⊢
    obtain ⟨q', t'⟩ := told'
    obtain ⟨q, t⟩ := told
    dsimp only at hresult
    subst hresult
    cases q' with
    | ok => exact ⟨rfl, hmodify _ hafter⟩
    | error p => exact ⟨rfl, hafter⟩

end Emit

end Host

namespace Stage
variable {α β : Type}

/-- The result of a stage and the host after it, without interruption. -/
def perform (m : Stage α) (h : Host) : Except Problem α × Host := Flow.run (ExceptT.run m) h

@[simp] theorem perform_pure (a : α) (h : Host) : perform (pure a) h = (.ok a, h) := rfl

@[simp] theorem perform_throw (p : Problem) (h : Host) :
    perform (throw p : Stage α) h = (.error p, h) := rfl

@[simp] theorem perform_host (h : Host) : perform host h = (.ok h, h) := rfl

@[simp] theorem perform_update (f : Host → Host) (h : Host) :
    perform (update f) h = (.ok (), f h) := rfl

@[simp] theorem perform_pause (h : Host) : perform pause h = (.ok (), h) := rfl

@[simp] theorem perform_attempt (f : Host → Except Problem α × Host) (h : Host) :
    perform (attempt f) h = f h := rfl

@[simp] theorem perform_lift (m : Flow Host α) (h : Host) :
    perform (ExceptT.lift m) h = (.ok (Flow.run m h).1, (Flow.run m h).2) := by
  change Flow.run (Except.ok <$> m) h = _
  exact Flow.run_bind m _ h

theorem perform_lift_stage {m : Stage α} {h h' : Host} {r : Except Problem α}
    (hm : perform m h = (r, h')) : perform (ExceptT.lift (ExceptT.run m)) h = (.ok r, h') := by
  rw [perform_lift]
  exact congrArg (fun x => (Except.ok x.1, x.2)) hm

theorem perform_bind (m : Stage α) (f : α → Stage β) (h : Host) :
    perform (m >>= f) h = match perform m h with
      | (.ok a, h) => perform (f a) h
      | (.error p, h) => (.error p, h) := by
  change Flow.run (ExceptT.run m >>= ExceptT.bindCont f) h = _
  rw [Flow.run_bind]
  change Flow.run (ExceptT.bindCont f (perform m h).1) (perform m h).2 = _
  cases perform m h with
  | mk r h =>
    cases r with
    | ok a => rfl
    | error p => rfl

theorem perform_bind_ok {m : Stage α} {f : α → Stage β} {h h' : Host} {a : α}
    (hm : perform m h = (.ok a, h')) : perform (m >>= f) h = perform (f a) h' := by
  rw [perform_bind, hm]

theorem exists_of_perform_bind_ok {m : Stage α} {f : α → Stage β} {h h' : Host} {b : β}
    (hm : perform (m >>= f) h = (.ok b, h')) :
    ∃ a h₁, perform m h = (.ok a, h₁) ∧ perform (f a) h₁ = (.ok b, h') := by
  rw [perform_bind] at hm
  cases hr : perform m h with
  | mk r h₁ =>
    rw [hr] at hm
    cases r with
    | ok a => exact ⟨a, h₁, rfl, hm⟩
    | error p => cases hm

end Stage

namespace Pipeline
open Stage
variable {plan : Plan} {dirty : List String} {h h' : Host}

def compiled (args : List String) (cwd : String) (t : FileTree) (h : Host) : Host :=
  { h with tree := t, spawns := h.spawns ++ [⟨args, cwd⟩] }

theorem perform_compileDirty_nil (plan : Plan) (h : Host) :
    perform (compileDirty plan []) h = (.ok (), h) := rfl

theorem perform_compileDirty {args : List String} {exit : Compilation.Exit} {t : FileTree}
    (hne : dirty ≠ []) (hargs : Invocation.arguments h.options plan.outputDir dirty = .ok args)
    (hrun : h.compiler args plan.inputDir h.tree = .ok (exit, t)) (hexit : exit.status = 0) :
    perform (compileDirty plan dirty) h = (.ok (), compiled args plan.inputDir t h) := by
  have hcompile : compile args plan.inputDir h = (.ok (), compiled args plan.inputDir t h) := by
    unfold compile
    dsimp only
    rw [hrun]
    dsimp only
    rw [if_pos hexit]
    rfl
  unfold compileDirty
  rw [if_neg (by simpa using hne)]
  change perform (host >>= _) h = _
  rw [perform_bind, perform_host]
  dsimp only
  rw [hargs]
  exact hcompile

theorem compileDirty_ok (hok : perform (compileDirty plan dirty) h = (.ok (), h')) :
    dirty = [] ∧ h' = h ∨
    ∃ args exit t, dirty ≠ [] ∧
      Invocation.arguments h.options plan.outputDir dirty = .ok args ∧
      h.compiler args plan.inputDir h.tree = .ok (exit, t) ∧ exit.status = 0 ∧
      h' = compiled args plan.inputDir t h := by
  by_cases hne : dirty = []
  · subst dirty
    exact Or.inl ⟨rfl, (Prod.mk.inj hok).2.symm⟩
  · unfold compileDirty at hok
    rw [if_neg (by simpa using hne)] at hok
    change perform (host >>= _) h = _ at hok
    rw [perform_bind, perform_host] at hok
    dsimp only at hok
    cases hargs : Invocation.arguments h.options plan.outputDir dirty with
    | error e =>
      rw [hargs] at hok
      cases hok
    | ok args =>
      rw [hargs] at hok
      change compile args plan.inputDir h = _ at hok
      unfold compile at hok
      dsimp only at hok
      cases hrun : h.compiler args plan.inputDir h.tree with
      | error e =>
        rw [hrun] at hok
        cases e with
        | refused e => cases hok
        | invalid f => cases hok
      | ok r =>
        obtain ⟨exit, t⟩ := r
        rw [hrun] at hok
        dsimp only at hok
        by_cases hexit : exit.status = 0
        · rw [if_pos hexit] at hok
          exact Or.inr ⟨args, exit, t, hne, rfl, hrun, hexit, (Prod.mk.inj hok).2.symm⟩
        · rw [if_neg hexit] at hok
          cases hok

theorem conclude_of_emit {R : Host → Host → Prop} {error : Option Problem}
    (htrans : ∀ {h h' h''}, R h h' → R h' h'' → R h h'')
    (hemit : R h (h.emit plan.channel error).2) (herase : ∀ t, R t (eraseOutput plan t).2) :
    R h (conclude plan error h).2 := by
  unfold conclude
  generalize h.emit plan.channel error = emitted at hemit
  obtain ⟨q, t⟩ := emitted
  cases q with
  | error p => exact hemit
  | ok =>
    cases error with
    | some p => exact hemit
    | none => exact htrans hemit (herase t)

theorem conclude_ok {error e : Option Problem} (hok : conclude plan error h = (.ok e, h')) :
    e = error ∧ ∃ t, h.emit plan.channel error = (.ok (), t) ∧
      (error = none → eraseOutput plan t = (.ok (), h')) := by
  unfold conclude at hok
  cases hemit : h.emit plan.channel error with
  | mk q t =>
    rw [hemit] at hok
    cases q with
    | error p => cases hok
    | ok =>
      cases error with
      | some p =>
        cases hok
        exact ⟨rfl, _, rfl, fun hnone => absurd hnone (Option.some_ne_none p)⟩
      | none =>
        dsimp only at hok
        cases herase : eraseOutput plan t with
        | mk q u =>
          rw [herase] at hok
          cases q with
          | error p => cases hok
          | ok =>
            cases hok
            exact ⟨rfl, t, rfl, fun _ => herase⟩

/-- A pass that ends well has compiled, then loaded for every target. -/
theorem pass_ok (hok : perform (pass plan dirty) h = (.ok none, h')) :
    ∃ h₁ h₂, perform (compileDirty plan dirty) h = (.ok (), h₁) ∧
      perform (postCompileAll plan h₁.options.targets) h₁ = (.ok (), h₂) ∧
      conclude plan none h₂ = (.ok none, h') := by
  cases hstages : perform (stages plan dirty) h with
  | mk r h₂ =>
    unfold pass at hok
    rw [perform_bind_ok (perform_lift_stage hstages)] at hok
    cases r with
    | error p =>
      by_cases hp : p.isReported = true
      · simp only [hp] at hok
        have hnone : none = some p := (conclude_ok hok).1
        cases hnone
      · simp only [hp] at hok
        cases hok
    | ok u =>
      obtain ⟨_, h₁, hcompile, hpost⟩ := exists_of_perform_bind_ok hstages
      exact ⟨h₁, h₂, hcompile, hpost, hok⟩

theorem perform_pass {h₁ h₂ : Host} (hcompile : perform (compileDirty plan dirty) h = (.ok (), h₁))
    (hpost : perform (postCompileAll plan h₁.options.targets) h₁ = (.ok (), h₂)) :
    perform (pass plan dirty) h = conclude plan none h₂ := by
  have hstages : perform (stages plan dirty) h = (.ok (), h₂) := by
    unfold stages
    rw [perform_bind_ok hcompile]
    exact hpost
  unfold pass
  rw [perform_bind_ok (perform_lift_stage hstages)]
  rfl

end Pipeline

end TemplateHost
