import TemplateHost.Proofs.Code.Registries
import TemplateHost.Proofs.Code.Scopes
import TemplateHost.Proofs.Context.Lookup
import TemplateHost.Proofs.Host.Batch

/-!
# The life of the support code

Loads run the support code until it has come to its end once. Whether that has happened is all that
a context remembers of it: before, no batch has run, and a load starts with the first support file;
from then on a load starts by emptying the registries of the scope that there is now.
-/
namespace TemplateHost

namespace Context
open Run
variable {c d : Context} {support batch : List Fetched} {ops : List Operation}

section Load
variable {before : List Fetched} {f : Fetched} {c₁ : Context} {e : Failure}

theorem load_of_runs (hc : c.initialized = false) (h : Runs c support d) (batch : List Fetched) :
    c.load support batch = ({ d with initialized := true } : Context).loadBatch batch := by
  refine (Ready.now hc ?_).load batch
  unfold runSupport
  rw [h.executeAll]

theorem load_of_stops (hc : c.initialized = false) (hbefore : Runs c before c₁)
    (hstop : Stops c₁ f e d) (after batch : List Fetched) :
    c.load (before ++ f :: after) batch = (.error e, d) := by
  rw [load_eq]
  unfold ready runSupport
  rw [if_neg (by simp [hc]), executeAll_append hbefore, executeAll_of_stops hstop]

theorem initialized_of_stops (hbefore : Runs c before c₁) (hstop : Stops c₁ f e d) :
    d.initialized = c.initialized := by
  have hkeep := executeAll_initialized c (before ++ [f])
  rwa [executeAll_append hbefore, executeAll_of_stops hstop] at hkeep

theorem initialized_loadBatch (c : Context) (batch : List Fetched) :
    (c.loadBatch batch).2.initialized = c.initialized := executeAll_initialized c batch

/-- A context is initialized by a load whose support code runs to its end. -/
theorem initialized_load_iff : (c.load support batch).2.initialized = true ↔
    c.initialized = true ∨ ∃ d, Runs c support d := by
  cases hc : c.initialized with
  | true =>
    rw [(Ready.earlier hc).load, initialized_loadBatch]
    exact ⟨fun _ => Or.inl rfl, fun _ => hc⟩
  | false =>
    rcases executeAll_cases c support with
      ⟨d, hruns⟩ | ⟨before, f, after, c₁, e, d, rfl, hbefore, hstop⟩
    · rw [load_of_runs hc hruns, initialized_loadBatch]
      exact ⟨fun _ => Or.inr ⟨d, hruns⟩, fun _ => rfl⟩
    · rw [load_of_stops hc hbefore hstop, initialized_of_stops hbefore hstop, hc]
      refine ⟨nofun, fun h => ?_⟩
      rcases h with h | ⟨d', hruns⟩
      · cases h
      · have hstopped := executeAll_of_stops hstop after
        rw [← executeAll_append hbefore, hruns.executeAll] at hstopped
        cases hstopped

end Load

section Scoped

/-- The scope in which code runs is there. -/
def Scoped (c : Context) : Prop := c.globals < c.store.scopes.size

theorem Scoped.run {α : Type} {r : ScopeId → Run α} (h : c.Scoped) (hr : Confined (r c.globals)) :
    (c.run r).2.Scoped :=
  h.trans_eq (hr c.store).symm

theorem Scoped.load (h : c.Scoped) (support batch : List Fetched) :
    (c.load support batch).2.Scoped :=
  load_induction
    (fun hc => hc.run ((confined_setGlobal _ _).bind fun _ => confined_setGlobal _ _))
    (fun f _ src _ _ hd =>
      hd.run (r := fun k => runSource k (Path.base f.path) src) (confined_runSource _ src))
    (fun _ hd => hd) (fun _ hd => hd) h

theorem scoped_setScope (c : Context) (keep : List String) (values : List (String × Injected)) :
    (c.setScope keep values).Scoped := by
  have hnew : (c.replaceScope (c.kept keep)).Scoped := by
    unfold Scoped replaceScope Store.addScope
    dsimp only
    rw [Array.size_push]
    exact Nat.lt_succ_self _
  exact hnew.run
    (.forM (fun e => (confined_make _ e.2).bind fun _ => confined_setGlobal _ _) values)

theorem Scoped.get {loading : Bool} {name : String} {v : Value} (h : c.Scoped)
    (hget : c.get loading name = .ok (v, d)) : d.Scoped := by
  rcases get_cases hget with ⟨-, rfl⟩ | ⟨-, -, rfl⟩ <;> exact h

theorem Scoped.act (h : c.Scoped) (op : Operation) : (c.act op).Scoped := by
  cases op with
  | load support batch => exact h.load support batch
  | setScope keep values => exact scoped_setScope c keep values
  | get loading name => exact act_get_induction h fun v d hget => h.get hget
  | render loading name data injected =>
    exact act_render_induction h fun v d hget =>
      (h.get hget).run (adds_callTemplate _ _ _).confined

theorem Scoped.after (h : c.Scoped) (ops : List Operation) : (c.after ops).Scoped := by
  induction ops using List.reverseRecOn with
  | nil => exact h
  | append_singleton ops op ih =>
    rw [after_concat]
    exact ih.act op

theorem resetRegistries_eq (c : Context) :
    c.resetRegistries = { c with store := c.store.withRegistries c.globals [] [] } := rfl

end Scoped

/-- Among the operations on a context there is a load whose support code runs to its end. -/
def Supported (c : Context) (ops : List Operation) : Prop :=
  ∃ before support batch, before ++ [.load support batch] <+: ops ∧
    ∃ d, Runs (c.after before) support d

/-- The same operation, except that a load has no batch. -/
def Operation.withoutBatch : Operation → Operation
  | .load support _ => .load support []
  | op => op

theorem supported_concat {op : Operation} : c.Supported (ops ++ [op]) ↔
    c.Supported ops ∨ ∃ support batch, op = .load support batch ∧
      ∃ d, Runs (c.after ops) support d := by
  constructor
  · rintro ⟨before, support, batch, hprefix, hruns⟩
    rcases List.prefix_concat_iff.mp hprefix with heq | hearlier
    · obtain ⟨rfl, hop⟩ := List.append_inj' heq rfl
      exact Or.inr ⟨support, batch, (List.cons.inj hop).1.symm, hruns⟩
    · exact Or.inl ⟨before, support, batch, hearlier, hruns⟩
  · rintro (⟨before, support, batch, hprefix, hruns⟩ | ⟨support, batch, rfl, hruns⟩)
    · exact ⟨before, support, batch, hprefix.trans (List.prefix_append _ _), hruns⟩
    · exact ⟨ops, support, batch, List.prefix_refl _, hruns⟩

theorem initialized_get {loading : Bool} {name : String} {v : Value}
    (h : c.get loading name = .ok (v, d)) : d.initialized = c.initialized := by
  rcases get_cases h with ⟨-, rfl⟩ | ⟨-, -, rfl⟩ <;> rfl

theorem initialized_act_iff {op : Operation} : (c.act op).initialized = true ↔
    c.initialized = true ∨ ∃ support batch, op = .load support batch ∧ ∃ d, Runs c support d := by
  have hother (h : (c.act op).initialized = c.initialized)
      (hop : ∀ support batch, op ≠ .load support batch) :
      (c.act op).initialized = true ↔ c.initialized = true ∨
        ∃ support batch, op = .load support batch ∧ ∃ d, Runs c support d := by
    rw [h]
    exact ⟨Or.inl, fun h => h.resolve_right fun ⟨_, _, hload, _⟩ => hop _ _ hload⟩
  cases op with
  | load support batch =>
    refine initialized_load_iff.trans (or_congr_right ⟨fun h => ⟨support, batch, rfl, h⟩, ?_⟩)
    rintro ⟨_, _, heq, h⟩
    cases heq
    exact h
  | setScope keep values => exact hother rfl nofun
  | get loading name =>
    refine hother ?_ nofun
    exact act_get_induction (P := fun d => d.initialized = c.initialized) rfl fun v d =>
      initialized_get
  | render loading name data injected =>
    refine hother ?_ nofun
    refine act_render_induction (P := fun d => d.initialized = c.initialized) rfl fun v d h => ?_
    change d.initialized = c.initialized
    exact initialized_get h

/-- Whatever is done with a context, it remembers whether its support code has come to its end. -/
theorem initialized_after_iff (hc : c.initialized = false) (ops : List Operation) :
    (c.after ops).initialized = true ↔ c.Supported ops := by
  induction ops using List.reverseRecOn with
  | nil =>
    refine ⟨fun h => absurd (hc.symm.trans h) nofun, ?_⟩
    rintro ⟨before, support, batch, hprefix, -⟩
    cases (List.append_eq_nil_iff.mp (List.prefix_nil.mp hprefix)).2
  | append_singleton ops op ih => rw [after_concat, initialized_act_iff, ih, supported_concat]

theorem act_withoutBatch {op : Operation} (h : (c.act op).initialized = false) :
    c.act op.withoutBatch = c.act op := by
  cases op with
  | load support batch =>
    have hnot : ¬(c.initialized = true ∨ ∃ d, Runs c support d) := fun hload =>
      Bool.false_ne_true (h.symm.trans (initialized_load_iff.mpr hload))
    rw [not_or, Bool.not_eq_true] at hnot
    obtain ⟨hc, hruns⟩ := hnot
    rcases executeAll_cases c support with
      hall | ⟨before, f, after, c₁, e, d, rfl, hbefore, hstop⟩
    · exact absurd hall hruns
    · exact congrArg Prod.snd ((load_of_stops hc hbefore hstop after []).trans
        (load_of_stops hc hbefore hstop after batch).symm)
  | setScope keep values => rfl
  | get loading name => rfl
  | render loading name data injected => rfl

theorem after_withoutBatch (h : (c.after ops).initialized = false) :
    c.after (ops.map Operation.withoutBatch) = c.after ops := by
  induction ops using List.reverseRecOn with
  | nil => rfl
  | append_singleton ops op ih =>
    rw [after_concat] at h
    have hbefore : (c.after ops).initialized = false := by
      rw [← Bool.not_eq_true] at h ⊢
      exact fun hinit => h (initialized_act_iff.mpr (Or.inl hinit))
    rw [List.map_append, List.map_singleton, after_concat, after_concat, ih hbefore,
      act_withoutBatch h]

/-- **The support code runs until it has come to its end once.** A context is initialized as soon as
that has happened. Until then no batch has run, and a load runs the support files from the first one
on: all of them and then the batch, or up to the one that stops it. From then on a load empties both
registries of the scope that the context has now and runs the batch, whatever support files there
are. -/
theorem support_runs_once {name : String} (hc : (new name).after ops = c) :
    (c.initialized = true ↔ (new name).Supported ops) ∧
    (¬(new name).Supported ops → (new name).after (ops.map Operation.withoutBatch) = c ∧
      ∀ support, (∃ d, Runs c support d ∧ ∀ batch, c.load support batch =
          ({ d with initialized := true } : Context).loadBatch batch) ∨
        ∃ before f after c₁ e d, support = before ++ f :: after ∧ Runs c before c₁ ∧
          Stops c₁ f e d ∧ ∀ batch, c.load support batch = (.error e, d)) ∧
    ((new name).Supported ops →
      (c.store.withRegistries c.globals [] []).Registries c.globals [] [] ∧
      ∀ support batch, c.load support batch =
        ({ c with store := c.store.withRegistries c.globals [] [] } : Context).loadBatch batch) ∧
    ∀ (h : Host) (locale : String) (paths : List String), h.context (some locale) = c →
      (Stage.perform (Pipeline.load locale paths) h).1 =
          (c.load h.supportFiles (Pipeline.batchOf h paths)).1.mapError .failure ∧
        (Stage.perform (Pipeline.load locale paths) h).2.context (some locale) =
          (c.load h.supportFiles (Pipeline.batchOf h paths)).2 := by
  have hinit : c.initialized = true ↔ (new name).Supported ops :=
    hc ▸ initialized_after_iff rfl ops
  have hnew : (new name).Scoped := Nat.one_pos
  have hscoped : c.Scoped := hc ▸ hnew.after ops
  refine ⟨hinit, fun hnot => ?_, fun hsupported => ?_, fun h locale paths hlocale => ?_⟩
  · have huninit : c.initialized = false := Bool.eq_false_iff.mpr (mt hinit.mp hnot)
    refine ⟨(after_withoutBatch (hc ▸ huninit)).trans hc, fun support => ?_⟩
    rcases executeAll_cases c support with
      ⟨d, hruns⟩ | ⟨before, f, after, c₁, e, d, rfl, hbefore, hstop⟩
    · exact Or.inl ⟨d, hruns, load_of_runs huninit hruns⟩
    · exact Or.inr ⟨before, f, after, c₁, e, d, rfl, hbefore, hstop,
        load_of_stops huninit hbefore hstop after⟩
  · refine ⟨Store.registries_withRegistries hscoped [] [], fun support batch => ?_⟩
    rw [← resetRegistries_eq]
    exact (Ready.earlier (hinit.mpr hsupported)).load batch
  · rw [← hlocale]
    exact Pipeline.perform_load_eq locale paths h

section Sample

/-- The support code fails, the scope is replaced, and other support code comes to its end. -/
def retried : List Operation :=
  [.load (failingSupport "one") [⟨"a.py", .ok (.holding [.assign "x" (.int 1)])⟩], .setScope [] [],
    .load [⟨"b.py", .ok (.holding [.assign "y" (.int 2)])⟩] []]

theorem support_runs_once_retried :
    ¬(new "a").Supported (retried.take 1) ∧ (new "a").Supported retried ∧
    ((new "a").after retried).globals = 1 ∧
    ((new "a").after retried).load (failingSupport "two") [] =
      ({ (new "a").after retried with
          store := ((new "a").after retried).store.withRegistries 1 [] [] } : Context).loadBatch
        [] := by
  obtain ⟨hfailed, -⟩ := support_runs_once (c := (new "a").after (retried.take 1)) rfl
  obtain ⟨hretried, -, hlater, -⟩ := support_runs_once (c := (new "a").after retried) rfl
  have hsupported : (new "a").Supported retried := hretried.mp rfl
  exact ⟨fun h => Bool.false_ne_true (hfailed.mpr h), hsupported, rfl, (hlater hsupported).2 _ _⟩

end Sample

end Context

end TemplateHost
