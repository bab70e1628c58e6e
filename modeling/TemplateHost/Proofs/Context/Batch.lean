import TemplateHost.Context.Basic
import TemplateHost.Proofs.Code.Running

/-!
# Batches

A batch runs its files in order, up to the first that cannot be read or fails. What has happened by
then is what the files before that one do, and of that one the statements up to the failing one.
-/
namespace TemplateHost
open Run

theorem Passage.formed_of_malformedLine? {p : Passage} (h : p.malformedLine? = none) :
    ∀ x ∈ p.statements, x.isMalformed = false := by
  cases p with
  | text s => exact nofun
  | module m =>
    have hm : m.statements.findIdx? Statement.isMalformed = none := by
      simpa [malformedLine?] using h
    exact List.findIdx?_eq_none_iff.mp hm

namespace Source

theorem formed_of_malformedLineFrom? {s : Source} {start : Nat}
    (h : s.malformedLineFrom? start = none) : ∀ x ∈ s.statements, x.isMalformed = false := by
  induction s generalizing start with
  | nil => exact nofun
  | cons p r ih =>
    unfold malformedLineFrom? at h
    cases hp : p.malformedLine? with
    | some n =>
      rw [hp] at h
      cases h
    | none =>
      rw [hp] at h
      intro x hx
      unfold statements at hx
      rw [List.flatMap_cons] at hx
      rcases List.mem_append.mp hx with hx | hx
      · exact Passage.formed_of_malformedLine? hp x hx
      · exact ih h x hx

def holding (xs : List Statement) : Source := [.module ⟨"", xs⟩]

theorem statements_holding (xs : List Statement) : (holding xs).statements = xs := by
  simp [holding, statements, Passage.statements]

theorem malformedLine?_holding {xs : List Statement} (h : ∀ x ∈ xs, x.isMalformed = false) :
    (holding xs).malformedLine? = none := by
  have hm : xs.findIdx? Statement.isMalformed = none := List.findIdx?_eq_none_iff.mpr h
  simp [holding, malformedLine?, malformedLineFrom?, Passage.malformedLine?, hm]

end Source

namespace Run

def opened (k : ScopeId) (s : Store) : Store := (on (bindBuiltins k) s).2

theorem on_bindBuiltins (k : ScopeId) (s : Store) :
    on (bindBuiltins k) s = (.ok (), opened k s) := by
  unfold opened bindBuiltins
  rw [on_bind, on_global?]
  dsimp only
  cases (s.scope k).get? builtinsName <;> rfl

theorem on_runSource_malformed {src : Source} {line : Nat} (h : src.malformedLine? = some line)
    (k : ScopeId) (file : String) (s : Store) :
    on (runSource k file src) s = (.error (.invalidSyntax file line), s) := by
  unfold runSource
  rw [h]
  rfl

theorem on_runSource_formed {src : Source} (h : src.malformedLine? = none) (k : ScopeId)
    (file : String) (s : Store) :
    on (runSource k file src) s = on (src.statements.forM (runStatement k)) (opened k s) := by
  unfold runSource
  rw [h]
  exact on_bind_ok (on_bindBuiltins k s) _

end Run

namespace Context
variable {c c₁ c₂ d : Context} {path : String} {src : Source} {e : Failure}

def report (path : String) (r : Except Fault Unit) : Except Failure Unit :=
  r.mapError fun f => .loading path f.summary .moduleExecution

theorem eq_ok_of_isOk {r : Except Failure Unit × Context} (h : r.1.isOk = true) :
    r = (.ok (), r.2) := by
  obtain ⟨q, d⟩ := r
  cases q with
  | ok u => rfl
  | error e => cases h

theorem run_eq {α : Type} (c : Context) (r : ScopeId → Run α) :
    c.run r = ((on (r c.globals) c.store).1, { c with store := (on (r c.globals) c.store).2 }) :=
  rfl

theorem execute_malformed {line : Nat} (h : src.malformedLine? = some line) (c : Context)
    (path : String) : c.execute path src =
      (report path (.error (.invalidSyntax (Path.base path) line)), c) := by
  unfold execute
  rw [run_eq, on_runSource_malformed h]
  rfl

theorem execute_formed (h : src.malformedLine? = none) (c : Context) (path : String) :
    c.execute path src =
      (report path (on (src.statements.forM (runStatement c.globals)) (opened c.globals c.store)).1,
        { c with store :=
          (on (src.statements.forM (runStatement c.globals)) (opened c.globals c.store)).2 }) := by
  unfold execute
  rw [run_eq, on_runSource_formed h]
  rfl

theorem execute_holding {xs : List Statement} (h : ∀ x ∈ xs, x.isMalformed = false) (c : Context)
    (path : String) :
    c.execute path (.holding xs) =
      (report path (on (xs.forM (runStatement c.globals)) (opened c.globals c.store)).1,
        { c with
          store := (on (xs.forM (runStatement c.globals)) (opened c.globals c.store)).2 }) := by
  rw [execute_formed (Source.malformedLine?_holding h), Source.statements_holding]

/-- Files run one after the other, and none of them fails. -/
inductive Runs : Context → List Fetched → Context → Prop where
  | nil (c : Context) : Runs c [] c
  | cons {c c₁ c₂ : Context} {f : Fetched} {r : List Fetched} {s : Source} (hf : f.result = .ok s)
      (hrun : c.execute f.path s = (.ok (), c₁)) (hr : Runs c₁ r c₂) : Runs c (f :: r) c₂

theorem executeAll_induction_mem {P : Context → Prop} {batch : List Fetched}
    (hstep : ∀ f ∈ batch, ∀ src, f.result = .ok src → ∀ d, P d → P (d.execute f.path src).2)
    (hc : P c) : P (c.executeAll batch).2 := by
  induction batch generalizing c with
  | nil => exact hc
  | cons f r ih =>
    unfold executeAll
    cases hf : f.result with
    | error p => exact hc
    | ok src =>
      dsimp only
      have hfirst := hstep f List.mem_cons_self src hf c hc
      cases hrun : c.execute f.path src with
      | mk result d =>
        rw [hrun] at hfirst
        cases result with
        | error e => exact hfirst
        | ok u => exact ih (fun g hg => hstep g (List.mem_cons_of_mem _ hg)) hfirst

theorem executeAll_induction {P : Context → Prop}
    (hstep : ∀ d path src, P d → P (d.execute path src).2) (hc : P c) (batch : List Fetched) :
    P (c.executeAll batch).2 :=
  executeAll_induction_mem (fun f _ src _ d => hstep d f.path src) hc

/-- How a file stops a batch, and what it leaves: it cannot be read, it is no code, or one of its
statements fails after those before it have run. -/
inductive Stops (c : Context) (f : Fetched) : Failure → Context → Prop where
  | unreadable {p : Problem} (hf : f.result = .error p) :
      Stops c f (.loading f.path p.message .moduleUnreadable) c
  | malformed {s : Source} {line : Nat} (hf : f.result = .ok s)
      (hline : s.malformedLine? = some line) :
      Stops c f (.loading f.path (Fault.invalidSyntax (Path.base f.path) line).summary
        .moduleExecution) c
  | failing {s : Source} {done rest : List Statement} {x : Statement} {c₁ c₂ : Context}
      {fault : Fault} (hf : f.result = .ok s) (hformed : s.malformedLine? = none)
      (hs : s.statements = done ++ x :: rest)
      (hdone : c.execute f.path (.holding done) = (.ok (), c₁))
      (hx : c₁.run (fun k => runStatement k x) = (.error fault, c₂)) :
      Stops c f (.loading f.path fault.summary .moduleExecution) c₂

theorem Runs.executeAll {batch : List Fetched} (h : Runs c batch d) :
    c.executeAll batch = (.ok (), d) := by
  induction h with
  | nil c => rfl
  | cons hf hrun hr ih =>
    unfold Context.executeAll
    rw [hf]
    dsimp only
    rw [hrun]
    exact ih

theorem stops_of_execute {f : Fetched} (hf : f.result = .ok src)
    (h : c.execute f.path src = (.error e, d)) : Stops c f e d := by
  cases hline : src.malformedLine? with
  | some line =>
    rw [execute_malformed hline] at h
    cases h
    exact .malformed hf hline
  | none =>
    rw [execute_formed hline] at h
    cases hrun : on (src.statements.forM (runStatement c.globals)) (opened c.globals c.store) with
    | mk r t =>
      rw [hrun] at h
      cases r with
      | ok u => cases h
      | error fault =>
        cases h
        obtain ⟨done, x, rest, u, hs, hdone, hx⟩ := on_forM_error hrun
        have hformed := Source.formed_of_malformedLineFrom? hline
        have hpart : c.execute f.path (.holding done) = (.ok (), { c with store := u }) := by
          rw [execute_holding fun y hy => hformed y (hs ▸ List.mem_append_left _ hy), hdone]
          rfl
        refine .failing hf hline hs hpart ?_
        rw [run_eq, hx]

theorem executeAll_of_stops {f : Fetched} (h : Stops c f e d) (later : List Fetched) :
    c.executeAll (f :: later) = (.error e, d) := by
  unfold Context.executeAll
  cases h with
  | unreadable hf => rw [hf]
  | malformed hf hline =>
    rw [hf]
    dsimp only
    rw [execute_malformed hline]
    rfl
  | @failing s done rest x c₁ _ fault hf hformed hs hdone hx =>
    rw [hf]
    dsimp only
    have hall := Source.formed_of_malformedLineFrom? hformed
    rw [execute_holding fun y hy => hall y (hs ▸ List.mem_append_left _ hy)] at hdone
    cases hrun : on (done.forM (runStatement c.globals)) (opened c.globals c.store) with
    | mk r u =>
      rw [hrun] at hdone
      cases r with
      | error fault => cases hdone
      | ok _ =>
        obtain rfl : { c with store := u } = c₁ := congrArg Prod.snd hdone
        cases hstep : on (runStatement c.globals x) u with
        | mk q v =>
          rw [run_eq] at hx
          dsimp only at hx
          rw [hstep] at hx
          obtain ⟨rfl, rfl⟩ := Prod.mk.inj hx
          rw [execute_formed hformed, hs, on_forM_stop hrun hstep rest]
          rfl

theorem executeAll_append {before : List Fetched} (h : Runs c before d) (later : List Fetched) :
    c.executeAll (before ++ later) = d.executeAll later := by
  induction h with
  | nil c => rfl
  | cons hf hrun hr ih =>
    rw [List.cons_append, Context.executeAll, hf]
    dsimp only
    rw [hrun]
    exact ih

theorem executeAll_cases (c : Context) (batch : List Fetched) :
    (∃ d, Runs c batch d) ∨ ∃ before f after c₁ e d, batch = before ++ f :: after ∧
      Runs c before c₁ ∧ Stops c₁ f e d := by
  induction batch generalizing c with
  | nil => exact Or.inl ⟨c, .nil c⟩
  | cons f r ih =>
    cases hf : f.result with
    | error p => exact Or.inr ⟨[], f, r, c, _, c, rfl, .nil c, .unreadable hf⟩
    | ok s =>
      cases hrun : c.execute f.path s with
      | mk q c₁ =>
        cases q with
        | error e => exact Or.inr ⟨[], f, r, c, e, c₁, rfl, .nil c, stops_of_execute hf hrun⟩
        | ok u =>
          rcases ih c₁ with ⟨d, hd⟩ | ⟨before, g, after, c₂, e, d, rfl, hbefore, hstop⟩
          · exact Or.inl ⟨d, .cons hf hrun hd⟩
          · exact Or.inr ⟨f :: before, g, after, c₂, e, d, rfl, .cons hf hrun hbefore, hstop⟩

theorem runSupport_cases (c : Context) (support : List Fetched) :
    (∃ d, c.executeAll support = (.ok (), d) ∧
      c.runSupport support = (.ok (), { d with initialized := true })) ∨
    ∃ e d, c.executeAll support = (.error e, d) ∧ c.runSupport support = (.error e, d) := by
  unfold runSupport
  rcases c.executeAll support with ⟨e | u, d⟩
  · exact Or.inr ⟨e, d, rfl, rfl⟩
  · exact Or.inl ⟨d, rfl, rfl⟩

def ready (c : Context) (support : List Fetched) : Except Failure Unit × Context :=
  if c.initialized then (.ok (), c.resetRegistries) else c.runSupport support

theorem load_eq (c : Context) (support batch : List Fetched) :
    c.load support batch = match c.ready support with
      | (.ok (), d) => d.loadBatch batch
      | (.error e, d) => (.error e, d) := by
  unfold load ready
  split
  · rfl
  · cases c.runSupport support with
    | mk r d => cases r <;> rfl

theorem load_induction {P : Context → Prop} {support batch : List Fetched}
    (hreset : P c → P c.resetRegistries)
    (hstep : ∀ f ∈ support ++ batch, ∀ src, f.result = .ok src →
      ∀ d, P d → P (d.execute f.path src).2)
    (hinit : ∀ d, P d → P { d with initialized := true }) (hclear : ∀ d, P d → P d.clearCache)
    (hc : P c) : P (c.load support batch).2 := by
  have hready : P (c.ready support).2 := by
    unfold ready
    split
    · exact hreset hc
    · have hall := executeAll_induction_mem
        (fun f hf => hstep f (List.mem_append_left batch hf)) hc
      rcases runSupport_cases c support with ⟨d, hexecute, hrun⟩ | ⟨e, d, hexecute, hrun⟩
      · rw [hexecute] at hall
        rw [hrun]
        exact hinit d hall
      · rw [hexecute] at hall
        rw [hrun]
        exact hall
  rw [load_eq]
  cases hrun : c.ready support with
  | mk q d =>
    rw [hrun] at hready
    cases q with
    | error e => exact hready
    | ok u =>
      exact hclear _ (executeAll_induction_mem
        (fun f hf => hstep f (List.mem_append_right support hf)) hready)

/-- A context is ready for a batch: its support code has run earlier, or runs now. -/
inductive Ready (c : Context) (support : List Fetched) : Context → Prop where
  | earlier (hc : c.initialized = true) : Ready c support c.resetRegistries
  | now {d : Context} (hc : c.initialized = false) (hrun : c.runSupport support = (.ok (), d)) :
      Ready c support d

theorem Ready.eq {support : List Fetched} (h : Ready c support d) :
    c.ready support = (.ok (), d) := by
  unfold ready
  cases h with
  | earlier hc => rw [if_pos hc]
  | now hc hrun => rw [if_neg (by simp [hc]), hrun]

theorem Ready.load {support : List Fetched} (h : Ready c support d) (batch : List Fetched) :
    c.load support batch = d.loadBatch batch := by
  rw [load_eq, h.eq]

theorem Runs.loadBatch {batch : List Fetched} (h : Runs c batch d) :
    c.loadBatch batch = (.ok (), d.clearCache) := by
  unfold Context.loadBatch
  rw [h.executeAll]

theorem loadBatch_of_stops {before : List Fetched} {f : Fetched} (hbefore : Runs c before c₁)
    (hstop : Stops c₁ f e d) (later : List Fetched) :
    c.loadBatch (before ++ f :: later) = (.error e, d.clearCache) := by
  unfold Context.loadBatch
  rw [executeAll_append hbefore, executeAll_of_stops hstop]

theorem Stops.code {f : Fetched} (h : Stops c f e d) : ∃ reason code,
    e = .loading f.path reason code ∧
      code.text = match f.result with
        | .error _ => "S-LOD-001"
        | .ok _ => "S-LOD-002" := by
  cases h with
  | unreadable hf => exact ⟨_, _, rfl, by rw [hf]; rfl⟩
  | malformed hf hline => exact ⟨_, _, rfl, by rw [hf]; rfl⟩
  | failing hf hformed hs hdone hx => exact ⟨_, _, rfl, by rw [hf]; rfl⟩

end Context

end TemplateHost
