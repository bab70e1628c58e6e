import TemplateHost.Proofs.Host.Announcement
import TemplateHost.Proofs.Host.Compilation

/-!
# The compiler of a pass

A pass starts at most one compiler, in its first stride, for exactly what is dirty. If none is
configured, or it cannot be started, or it fails, the pass ends with that stride: no context is
entered and no file is joined, so that templates render as before.
-/
namespace TemplateHost

/-- Nothing could be compiled: no compiler is configured, it cannot be started, or it fails. -/
def Problem.isOfCompiler : Problem → Bool
  | .failure (.configuration _ _) | .failure (.compilation _ _) => true
  | _ => false

theorem Outcome.exists_strides_cons {σ α : Type} (others : Others σ) (o : Outcome σ α) (n : Nat) :
    ∃ t later, ∀ s, o.strides others s n = (s, t) :: later := by
  cases o with
  | done a t => exact ⟨t, [], fun _ => rfl⟩
  | paused t rest => exact ⟨t, _, fun _ => rfl⟩

namespace Invocation

/-- A compiler is configured by a command or by a class. -/
theorem launcher_error_iff {o : Options} : (∃ e, launcher o = .error e) ↔
    o.flag .compilerCommand = false ∧ o.nonempty? .compilerClass = none := by
  unfold launcher
  cases o.flag .compilerCommand with
  | true => simp
  | false =>
    cases o.nonempty? .compilerClass with
    | none => simp
    | some c => simp

theorem launcher_error {o : Options} {e : Failure} (hfail : launcher o = .error e) :
    e = .compilerUnset := by
  obtain ⟨hcommand, hclass⟩ := launcher_error_iff.mp ⟨e, hfail⟩
  unfold launcher at hfail
  rw [hcommand, hclass] at hfail
  exact (Except.error.inj hfail).symm

end Invocation

namespace Host
variable {h h' h'' : Host}

/-- Nothing is changed but files and what is recorded. -/
structure Spared (h h' : Host) : Prop where
  surroundings : h'.surroundings = h.surroundings
  compiler : h'.compiler = h.compiler
  options : h'.options = h.options
  contexts : h'.contexts = h.contexts
  supportSources : h'.supportSources = h.supportSources

theorem Spared.refl (h : Host) : Spared h h := ⟨rfl, rfl, rfl, rfl, rfl⟩

theorem Spared.trans (h₁ : Spared h h') (h₂ : Spared h' h'') : Spared h h'' :=
  ⟨h₂.surroundings.trans h₁.surroundings, h₂.compiler.trans h₁.compiler,
    h₂.options.trans h₁.options, h₂.contexts.trans h₁.contexts,
    h₂.supportSources.trans h₁.supportSources⟩

theorem Spared.render (hs : Spared h h') (locale : Option String) (name : String)
    (data injected : Value) :
    (h'.context locale).render h'.loading name data injected =
      (h.context locale).render h.loading name data injected := by
  unfold context loading
  rw [hs.contexts, hs.options]

theorem emit_spared (h : Host) (k : ChannelId) (error : Option Problem) :
    Spared h (h.emit k error).2 ∧ (h.emit k error).2.tree = h.tree ∧
      (h.emit k error).2.spawns = h.spawns := by
  apply emit_of_hear (R := fun h h' => Spared h h' ∧ h'.tree = h.tree ∧ h'.spawns = h.spawns)
  · exact fun h => ⟨.refl h, rfl, rfl⟩
  · exact fun h₁ h₂ => ⟨h₁.1.trans h₂.1, h₂.2.1.trans h₁.2.1, h₂.2.2.trans h₁.2.2⟩
  · intro h l
    cases l <;> exact ⟨⟨rfl, rfl, rfl, rfl, rfl⟩, rfl, rfl⟩
  · exact fun h f => ⟨⟨rfl, rfl, rfl, rfl, rfl⟩, rfl, rfl⟩

end Host

namespace Pipeline
open Host Stage
variable {others : Others Host} {plan : Plan} {dirty : List String} {h h₀ t : Host} {p : Problem}
  {started : List Spawn} {r : Except Problem Unit}

/-- The compilers that a pass starts are at most one, for what is dirty, in the input directory. -/
structure Launched (plan : Plan) (dirty : List String) (h : Host) (started : List Spawn) :
    Prop where
  atMostOne : started.length ≤ 1
  none_iff : started = [] ↔ dirty = [] ∨
    h.options.flag .compilerCommand = false ∧ h.options.nonempty? .compilerClass = none
  commandLine : ∀ x ∈ started, x.directory = plan.inputDir ∧
    ∃ launch tail, Invocation.launcher h.options = .ok launch ∧ x.arguments = launch ++ tail ∧
      (Invocation.read [none] tail).map Invocation.Order.sources = some dirty

/-- The files after a compilation that failed: nothing is changed but what a compiler that was
started has changed. -/
def Leaves (h : Host) (started : List Spawn) (files : FileTree) : Prop :=
  started = [] ∧ files = h.tree ∨
  ∃ x, started = [x] ∧
    ((∃ e, h.compiler x.arguments x.directory h.tree = .error (.refused e)) ∧ files = h.tree ∨
      ∃ exit, h.compiler x.arguments x.directory h.tree = .ok (exit, files) ∧ exit.status ≠ 0)

/-- Something is to be compiled, and no compiler is there, or it cannot be started, or it fails. -/
def Refuses (dirty : List String) (h : Host) (started : List Spawn) : Prop :=
  dirty ≠ [] ∧ ∀ x ∈ started,
    (∃ e, h.compiler x.arguments x.directory h.tree = .error (.refused e)) ∨
    ∃ exit files, h.compiler x.arguments x.directory h.tree = .ok (exit, files) ∧ exit.status ≠ 0

theorem launched_nil (plan : Plan) (h : Host) : Launched plan [] h [] :=
  ⟨Nat.zero_le 1, by simp, nofun⟩

theorem launched_unset {e : Failure} (hlaunch : Invocation.launcher h.options = .error e)
    (plan : Plan) (dirty : List String) : Launched plan dirty h [] := by
  refine ⟨Nat.zero_le 1, ?_, nofun⟩
  have hunset := Invocation.launcher_error_iff.mp ⟨e, hlaunch⟩
  exact ⟨fun _ => Or.inr hunset, fun _ => rfl⟩

theorem launched_one {launch : List String} (hlaunch : Invocation.launcher h.options = .ok launch)
    (hne : dirty ≠ []) (plan : Plan) :
    Launched plan dirty h
      [⟨launch ++ Invocation.flags h.options plan.outputDir ++ dirty, plan.inputDir⟩] := by
  refine ⟨Nat.le_refl 1, ?_, ?_⟩
  · constructor
    · exact nofun
    · intro hnone
      obtain ⟨e, hfail⟩ := Invocation.launcher_error_iff.mpr (hnone.resolve_left hne)
      rw [hlaunch] at hfail
      cases hfail
  · intro x hx
    obtain rfl := List.mem_singleton.mp hx
    refine ⟨rfl, launch, Invocation.flags h.options plan.outputDir ++ dirty, hlaunch,
      List.append_assoc _ _ _, ?_⟩
    rw [Invocation.read_flags_joined]
    rfl

theorem refuses_one (hne : dirty ≠ []) (x : Spawn) :
    Refuses dirty h [x] ↔
      (∃ e, h.compiler x.arguments x.directory h.tree = .error (.refused e)) ∨
      ∃ exit files, h.compiler x.arguments x.directory h.tree = .ok (exit, files) ∧
        exit.status ≠ 0 := by
  unfold Refuses
  rw [List.forall_mem_singleton, and_iff_right hne]

/-- What the start of a compiler does, and how it ends. -/
theorem compile_cases {args : List String} {inputDir : String} (hne : dirty ≠ [])
    (hrun : compile args inputDir h = (r, t)) :
    t.spawns = h.spawns ++ [⟨args, inputDir⟩] ∧ Spared h t ∧
      ((r = .ok () ∨ ∃ f, r = .error (.fault f)) ∧ ¬ Refuses dirty h [⟨args, inputDir⟩] ∨
        ∃ p, r = .error p ∧ p.isOfCompiler = true ∧ Refuses dirty h [⟨args, inputDir⟩] ∧
          Leaves h [⟨args, inputDir⟩] t.tree) := by
  unfold compile at hrun
  dsimp only at hrun
  rw [refuses_one hne]
  cases hcompiler : h.compiler args inputDir h.tree with
  | error e =>
    rw [hcompiler] at hrun
    cases e with
    | refused e =>
      cases hrun
      exact ⟨rfl, ⟨rfl, rfl, rfl, rfl, rfl⟩, Or.inr ⟨_, rfl, rfl, Or.inl ⟨e, rfl⟩,
        Or.inr ⟨_, rfl, Or.inl ⟨⟨e, hcompiler⟩, rfl⟩⟩⟩⟩
    | invalid f =>
      cases hrun
      refine ⟨rfl, ⟨rfl, rfl, rfl, rfl, rfl⟩, Or.inl ⟨Or.inr ⟨f, rfl⟩, ?_⟩⟩
      rintro (⟨e, hrefused⟩ | ⟨exit, files, hok, -⟩)
      · cases hrefused
      · cases hok
  | ok result =>
    obtain ⟨exit, files⟩ := result
    rw [hcompiler] at hrun
    dsimp only at hrun
    by_cases hexit : exit.status = 0
    · rw [if_pos hexit] at hrun
      cases hrun
      refine ⟨rfl, ⟨rfl, rfl, rfl, rfl, rfl⟩, Or.inl ⟨Or.inl rfl, ?_⟩⟩
      rintro (⟨e, hrefused⟩ | ⟨exit', files', hok, hfailed⟩)
      · cases hrefused
      · cases hok
        exact hfailed hexit
    · rw [if_neg hexit] at hrun
      cases hrun
      exact ⟨rfl, ⟨rfl, rfl, rfl, rfl, rfl⟩, Or.inr ⟨_, rfl, rfl, Or.inr ⟨exit, files, rfl, hexit⟩,
        Or.inr ⟨_, rfl, Or.inr ⟨exit, hcompiler, hexit⟩⟩⟩⟩

theorem compileDirty_cases (hrun : perform (compileDirty plan dirty) h = (r, t)) :
    ∃ started, Launched plan dirty h started ∧ t.spawns = h.spawns ++ started ∧ Spared h t ∧
      ((r = .ok () ∨ ∃ f, r = .error (.fault f)) ∧ ¬ Refuses dirty h started ∨
        ∃ p, r = .error p ∧ p.isOfCompiler = true ∧ Refuses dirty h started ∧
          Leaves h started t.tree) := by
  by_cases hne : dirty = []
  · subst dirty
    cases hrun
    exact ⟨[], launched_nil plan h, (List.append_nil _).symm, .refl h,
      Or.inl ⟨Or.inl rfl, fun hrefuses => hrefuses.1 rfl⟩⟩
  · unfold compileDirty at hrun
    rw [if_neg (by simpa using hne)] at hrun
    change perform (host >>= _) h = _ at hrun
    rw [perform_bind, perform_host] at hrun
    dsimp only at hrun
    cases hlaunch : Invocation.launcher h.options with
    | error e =>
      have hargs : Invocation.arguments h.options plan.outputDir dirty = .error e := by
        unfold Invocation.arguments
        rw [hlaunch]
        rfl
      rw [hargs] at hrun
      cases hrun
      refine ⟨[], launched_unset hlaunch plan dirty, (List.append_nil _).symm, .refl h,
        Or.inr ⟨.failure e, rfl, ?_, ⟨hne, nofun⟩, Or.inl ⟨rfl, rfl⟩⟩⟩
      rw [Invocation.launcher_error hlaunch]
      rfl
    | ok launch =>
      have hlaunched := launched_one hlaunch hne plan
      rw [Invocation.arguments_of_launcher hlaunch] at hrun
      change compile (launch ++ Invocation.flags h.options plan.outputDir ++ dirty) plan.inputDir h
        = _ at hrun
      exact ⟨_, hlaunched, compile_cases hne hrun⟩

theorem run_bind_host {α : Type} (k : Host → Stage α) (h : Host) :
    ExceptT.run (host >>= k) h = ExceptT.run (k h) h := rfl

theorem run_compileDirty (plan : Plan) (dirty : List String) (h : Host) :
    ExceptT.run (compileDirty plan dirty) h =
      .done (perform (compileDirty plan dirty) h).1 (perform (compileDirty plan dirty) h).2 := by
  unfold compileDirty
  split
  · rfl
  · change ExceptT.run (host >>= _) h = .done (perform (host >>= _) h).1 (perform (host >>= _) h).2
    rw [run_bind_host, perform_bind, perform_host]
    dsimp only
    cases Invocation.arguments h.options plan.outputDir dirty with
    | error e => rfl
    | ok args => rfl

theorem run_pass_of_error (hrun : perform (compileDirty plan dirty) h = (.error p, t)) :
    ExceptT.run (pass plan dirty) h =
      .done (ending plan (.error p) t).1 (ending plan (.error p) t).2 := by
  rw [run_pass]
  change ((ExceptT.run (compileDirty plan dirty) h).bind _).bind _ = _
  rw [run_compileDirty, hrun]
  rfl

theorem run_pass_of_ok (hrun : perform (compileDirty plan dirty) h = (.ok (), t)) :
    ExceptT.run (pass plan dirty) h =
      (ExceptT.run (postCompileAll plan t.options.targets) t).bind fun r t =>
        .done (ending plan r t).1 (ending plan r t).2 := by
  rw [run_pass]
  change ((ExceptT.run (compileDirty plan dirty) h).bind _).bind _ = _
  rw [run_compileDirty, hrun]
  rfl

theorem spawns_ending (plan : Plan) (r : Except Problem Unit) (h : Host) :
    (ending plan r h).2.spawns = h.spawns := by
  have herase (t : Host) : (eraseOutput plan t).2.spawns = t.spawns := by
    obtain ⟨files, log, herased, -⟩ := eraseOutput_frame plan t
    rw [herased]
    rfl
  unfold ending
  cases verdict r with
  | error p => rfl
  | ok error =>
    exact conclude_of_emit (R := fun h h' => h'.spawns = h.spawns) (fun h₁ h₂ => h₂.trans h₁)
      (emit_spared h plan.channel error).2.2 herase

theorem spawns_after_compiling (others : Others Host) (plan : Plan) (locales : List String)
    (t : Host) : ∀ q ∈ ((ExceptT.run (postCompileAll plan locales) t).bind fun r t =>
      .done (ending plan r t).1 (ending plan r t).2).strides others t 0,
    q.2.spawns = q.1.spawns := by
  have hwithin := ((settles_postCompileAll plan locales).mono fun _ _ => Settles.spawns).strides t
  obtain ⟨earlier, u, hstrides, hearlier, hlast⟩ :=
    hwithin.strides_bind_done (fun r t => (ending plan r t).1) (fun r t => (ending plan r t).2)
      others 0
  intro q hq
  rw [hstrides] at hq
  rcases List.mem_append.mp hq with hq | hq
  · exact hearlier q hq
  · obtain rfl := List.mem_singleton.mp hq
    exact (spawns_ending plan _ _).trans hlast

theorem not_isOfCompiler_of_postCompileAll {locales : List String} {x : Host × Nat}
    (hfail : (amid others (postCompileAll plan locales) x).1 = .error p) :
    p.isOfCompiler = false := by
  obtain ⟨_, locale, _, y, -, -, hfail⟩ := postCompileAll_error.mp hfail
  rcases postCompile_error.mp hfail with hjoin | ⟨z, -, -, hload⟩
  · obtain ⟨-, -, -, u, -, rfl⟩ := concat_error hjoin
    rfl
  · obtain ⟨-, -, -, rfl⟩ := load_error hload
    rfl

/-- A pass ends in the verdict on its stages, unless a listener cancels or the system does not take
the name of what is to be erased. -/
theorem ending_eq_verdict (hlisteners : ∀ c, h.channels[plan.channel]? = some c →
    .cancelling ∉ c.listeners) (hnull : Path.hasNull plan.outputDir = false) :
    (ending plan r h).1 = verdict r := by
  unfold ending
  cases verdict r with
  | error p => rfl
  | ok error => exact conclude_eq_ok.mpr ⟨hlisteners, fun _ _ _ => hnull⟩

/-- What a pass has to do with compilers: from the host in which it begins, and the host in which
its first stride does, to how its stages end after its strides. -/
structure CompilesOnce (plan : Plan) (dirty : List String) (h h₀ : Host) (started : List Spawn)
    (ended : Except Problem Unit) (strides : List (Host × Host)) : Prop where
  launched : Launched plan dirty h started
  starts : ∃ t later, strides = (h₀, t) :: later ∧ t.spawns = h₀.spawns ++ started ∧
    ∀ q ∈ later, q.2.spawns = q.1.spawns
  fails_iff : (∃ p, ended = .error p ∧ p.isOfCompiler = true) ↔ Refuses dirty h started
  harmless : ∀ p, ended = .error p → p.isOfCompiler = true →
    ∃ t, strides = [(h₀, t)] ∧ Leaves h started t.tree ∧ Spared h₀ t ∧
      ∀ locale name data injected,
        (t.context locale).render t.loading name data injected =
          (h₀.context locale).render h₀.loading name data injected

theorem isReported_of_isOfCompiler (hp : p.isOfCompiler = true) : p.isReported = true := by
  cases p with
  | failure f => rfl
  | file e => rfl
  | undecodable u => cases hp
  | fault f => cases hp
  | cancelled => cases hp

theorem amid_stages_of_error (others : Others Host)
    (hrun : perform (compileDirty plan dirty) h = (.error p, t)) :
    (amid others (stages plan dirty) (h, 0)).1 = .error p := by
  unfold amid
  change (((ExceptT.run (compileDirty plan dirty) h).bind _).amid others 0).1 = _
  rw [run_compileDirty, hrun]
  rfl

theorem amid_stages_of_ok (others : Others Host)
    (hrun : perform (compileDirty plan dirty) h = (.ok (), t)) :
    (amid others (stages plan dirty) (h, 0)).1 =
      (amid others (postCompileAll plan t.options.targets) (t, 0)).1 := by
  unfold amid
  change (((ExceptT.run (compileDirty plan dirty) h).bind _).amid others 0).1 = _
  rw [run_compileDirty, hrun]
  rfl

theorem pass_compilesOnce (others : Others Host) (plan : Plan) (dirty : List String)
    (hspared : Spared h₀ h) (hspawns : h.spawns = h₀.spawns) :
    ∃ started, CompilesOnce plan dirty h h₀ started (amid others (stages plan dirty) (h, 0)).1
      ((ExceptT.run (pass plan dirty) h).strides others h₀ 0) := by
  cases hrun : perform (compileDirty plan dirty) h with
  | mk r t =>
    obtain ⟨started, hlaunched, hstarted, hspared', hends⟩ := compileDirty_cases hrun
    rw [hspawns] at hstarted
    refine ⟨started, ?_⟩
    rcases hends with ⟨rfl | ⟨f, rfl⟩, hgoes⟩ | ⟨p, rfl, hp, hrefuses, hleaves⟩
    · rw [run_pass_of_ok hrun, amid_stages_of_ok others hrun]
      have hnever (p : Problem)
          (hended : (amid others (postCompileAll plan t.options.targets) (t, 0)).1 = .error p) :
          p.isOfCompiler ≠ true := by
        rw [not_isOfCompiler_of_postCompileAll hended]
        exact Bool.false_ne_true
      refine ⟨hlaunched, ?_, ⟨?_, fun hrefuses => absurd hrefuses hgoes⟩,
        fun p hended hp => absurd hp (hnever p hended)⟩
      · -- The first stride has begun before, but where it ends does not depend on that.
        obtain ⟨t', later, hcons⟩ := Outcome.exists_strides_cons others
          ((ExceptT.run (postCompileAll plan t.options.targets) t).bind fun r t =>
            .done (ending plan r t).1 (ending plan r t).2) 0
        have hquiet := spawns_after_compiling others plan t.options.targets t
        rw [hcons t] at hquiet
        obtain ⟨hfirst, hlater⟩ := List.forall_mem_cons.mp hquiet
        exact ⟨t', later, hcons h₀, hfirst.trans hstarted, hlater⟩
      · rintro ⟨p, hended, hp⟩
        exact absurd hp (hnever p hended)
    · rw [run_pass_of_error hrun, amid_stages_of_error others hrun]
      have hnever (p : Problem) (hended : (.error (.fault f) : Except Problem Unit) = .error p) :
          p.isOfCompiler ≠ true := by
        obtain rfl := Except.error.inj hended
        exact Bool.false_ne_true
      refine ⟨hlaunched, ⟨_, [], rfl, hstarted, List.forall_mem_nil _⟩,
        ⟨?_, fun hrefuses => absurd hrefuses hgoes⟩,
        fun p hended hp => absurd hp (hnever p hended)⟩
      rintro ⟨p, hended, hp⟩
      exact absurd hp (hnever p hended)
    · have hverdict : verdict (.error p) = .ok (some p) :=
        if_pos (isReported_of_isOfCompiler hp)
      obtain ⟨hemit, htree, hemitted⟩ := emit_spared t plan.channel (some p)
      have hconclude : (conclude plan (some p) t).2 = (t.emit plan.channel (some p)).2 := by
        unfold conclude
        generalize t.emit plan.channel (some p) = emitted
        obtain ⟨q, u⟩ := emitted
        cases q <;> rfl
      have hspared₀ := (hspared.trans hspared').trans hemit
      rw [← hconclude] at htree hemitted hspared₀
      rw [run_pass_of_error hrun, amid_stages_of_error others hrun]
      unfold ending
      rw [hverdict]
      refine ⟨hlaunched, ⟨_, [], rfl, hemitted.trans hstarted, List.forall_mem_nil _⟩,
        ⟨fun _ => hrefuses, fun _ => ⟨p, rfl, hp⟩⟩, fun _ _ _ => ⟨_, rfl, ?_, hspared₀,
          hspared₀.render⟩⟩
      exact htree.symm ▸ hleaves

end Pipeline

namespace Session
open Host Stage Pipeline

theorem prepareCall_spared (s : Session) (inputDir : String) (files : List String)
    (channel : ChannelId) :
    Spared s.env (s.prepareCall inputDir files channel).2.env ∧
      (s.prepareCall inputDir files channel).2.env.spawns = s.env.spawns := by
  unfold prepareCall watchSources
  dsimp only
  split
  · exact ⟨⟨rfl, rfl, rfl, rfl, rfl⟩, rfl⟩
  · exact ⟨⟨rfl, rfl, rfl, rfl, rfl⟩, rfl⟩

/-- **A compilation that fails leaves rendering untouched**, in first passes and in recompile
passes, whatever goes on in the pauses of others. What is announced at the end of a pass is the
verdict on its stages, and its result, too, is that verdict, unless a listener cancels. -/
theorem failed_compilation_harmless (others : Others Host) :
    (∀ (s : Session) (listener : Option PassListener) (c : Call) (plan : Plan)
      (dirty : List String) (h : Host), c.pass? s listener = some (plan, dirty, h) →
      ∃ started ended,
        Announces Silent (fun x => (ending plan ended x).map (·.bind raised) id)
          (c.amid others s listener).1 (c.amid others s listener).2 ∧
        CompilesOnce plan dirty h (s.opened listener).env started ended
          (c.amid others s listener).2) ∧
    (∀ (x : Watch.Pass) (h : Host) (plan : Plan), h.plans[x.scheduler]? = some plan →
      ∃ o started ended, recompile x h = .going o ∧
        Announces Works (fun x => (ending plan ended x).map passResult id)
          (o.amid others 0).1 (o.strides others h 0) ∧
        CompilesOnce plan x.files h h started ended (o.strides others h 0)) ∧
    ∀ (plan : Plan) (ended : Except Problem Unit) (x : Host),
      (∀ c, x.channels[plan.channel]? = some c → .cancelling ∉ c.listeners) →
      Path.hasNull plan.outputDir = false →
      (ending plan ended x).1 = verdict ended ∧ (verdict ended).bind raised = ended := by
  refine ⟨?_, ?_, ?_⟩
  · intro s listener c plan dirty h hpass
    unfold Call.pass? at hpass
    unfold Call.amid
    dsimp only
    cases hsources : c.sources (s.opened listener) with
    | error p =>
      rw [hsources] at hpass
      cases hpass
    | ok found =>
      cases found with
      | none =>
        rw [hsources] at hpass
        cases hpass
      | some found =>
        obtain ⟨inputDir, files⟩ := found
        rw [hsources] at hpass
        cases hpass
        obtain ⟨hspared, hspawns⟩ :=
          prepareCall_spared (s.opened listener) inputDir files s.env.channels.length
        obtain ⟨started, honce⟩ := pass_compilesOnce others
          ((s.opened listener).planFor inputDir files s.env.channels.length)
          ((s.opened listener).dirtyFor
            ((s.opened listener).planFor inputDir files s.env.channels.length)) hspared hspawns
        have hends := (pass_ends others
          (silent_stages (s.opened listener) inputDir files s.env.channels.length)).map
            (·.bind raised)
        exact ⟨started, _, hends, honce⟩
  · intro x h plan hplan
    obtain ⟨started, honce⟩ := pass_compilesOnce others plan x.files (.refl h) rfl
    have hends := (pass_ends others (works_stages plan x.files h)).map passResult
    refine ⟨(ExceptT.run (pass plan x.files) h).bind fun r t => .done (passResult r) t, started,
      (amid others (stages plan x.files) (h, 0)).1, ?_, ?_, ?_⟩
    · unfold recompile
      rw [hplan]
    · rw [Outcome.amid_bind, Outcome.strides_map]
      exact hends
    · rwa [Outcome.strides_map]
  · intro plan ended x hlisteners hnull
    refine ⟨ending_eq_verdict hlisteners hnull, ?_⟩
    cases ended with
    | ok u => rfl
    | error p =>
      unfold verdict
      dsimp only
      split <;> rfl

def helloModule : Source :=
  [.module ⟨"hello", [.template "hi" ⟨"hi", [.text "hello"], none, none⟩]⟩]

/-- A session in which a template is loaded, and whose compiler is told of a source that is not
there. -/
def missingSource : Session :=
  let h := Host.new sampleSurroundings (.empty []) ⟨2024, 1, 2, 3, 4, 5, 0⟩ (.ofInt 0)
  let h := h.setContext none ((h.context none).execute "hello" helloModule).2
  start { h with options := h.options.set .compilerCommand (.list [.text "soyc"]) }
    (.table [] .empty)

theorem failed_compilation_harmless_missingSource :
    ∃ x t, (Call.amid .idle missingSource none (.listed ["a.soy"])).2 =
        [((missingSource.opened none).env, t)] ∧ t.spawns = [x] ∧ x.directory = "/" ∧
      ((t.context none).render t.loading "hi" .null .null).1.toOption = some "hello" ∧
      ∀ locale name data injected,
        (t.context locale).render t.loading name data injected =
          (missingSource.env.context locale).render missingSource.env.loading name data
            injected := by
  obtain ⟨hcalls, -, hverdict⟩ := failed_compilation_harmless .idle
  obtain ⟨started, ended, hannounces, honce⟩ :=
    hcalls missingSource none (.listed ["a.soy"]) _ _ _ rfl
  have hraised : (match (Call.amid .idle missingSource none (.listed ["a.soy"])).1 with
      | .ok _ => false
      | .error p => p.isOfCompiler) = true := by decide +kernel
  obtain ⟨y, hone⟩ : ∃ y, (Call.amid .idle missingSource none (.listed ["a.soy"])).2 =
      [((missingSource.opened none).env, y)] := ⟨_, rfl⟩
  have hended : (Call.amid .idle missingSource none (.listed ["a.soy"])).1 = ended := by
    obtain ⟨earlier, u, x, hresult, hstrides, -, hsilent⟩ := hannounces
    obtain ⟨-, rfl⟩ : earlier = [] ∧ u = (missingSource.opened none).env := by
      rw [hone] at hstrides
      cases earlier with
      | nil => exact ⟨rfl, (congrArg Prod.fst (List.cons.inj hstrides).1).symm⟩
      | cons q r => simp at hstrides
    have hlisteners (c : Channel PassListener Problem) (hc : x.channels[0]? = some c) :
        .cancelling ∉ c.listeners := by
      rw [hsilent.channels] at hc
      cases hc
      decide
    obtain ⟨hending, hbind⟩ := hverdict ((missingSource.opened none).planFor "/" ["a.soy"] 0) ended
      x hlisteners (by decide +kernel)
    rw [hresult]
    exact (congrArg (·.bind raised) hending).trans hbind
  obtain ⟨p, rfl, hcompiler⟩ : ∃ p, ended = .error p ∧ p.isOfCompiler = true := by
    rw [hended] at hraised
    cases ended with
    | ok u => cases hraised
    | error p => exact ⟨p, rfl, hraised⟩
  obtain ⟨t, hstrides, hleaves, -, hrender⟩ := honce.harmless p rfl hcompiler
  obtain ⟨t', later, hstarts, hspawns, -⟩ := honce.starts
  obtain ⟨rfl, -⟩ : t = t' ∧ [] = later := by
    rw [hstrides] at hstarts
    simpa using hstarts
  have hstarted : started ≠ [] := by
    intro hnone
    rcases honce.launched.none_iff.mp hnone with hclean | ⟨hunset, -⟩
    · cases hclean
    · cases hunset
  obtain ⟨x, rfl⟩ : ∃ x, started = [x] := by
    rcases hleaves with ⟨hnone, -⟩ | ⟨x, hone, -⟩
    · exact absurd hnone hstarted
    · exact ⟨x, hone⟩
  have hhello : ((missingSource.env.context none).render missingSource.env.loading "hi" .null
      .null).1.toOption = some "hello" := by decide +kernel
  exact ⟨x, t, hstrides, hspawns, (honce.launched.commandLine x List.mem_cons_self).1,
    (hrender none "hi" .null .null).symm ▸ hhello, hrender⟩

end Session

end TemplateHost
