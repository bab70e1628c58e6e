import TemplateHost.Host.Pipeline
import TemplateHost.Proofs.Context.Batch
import TemplateHost.Proofs.Flow.Interruption

/-!
# Where passes fail

A pass whose pauses others use as they like fails where its compiler fails or where the modules of
one of its locales cannot be loaded. Joining modules fails only if one of them is not text.
-/
namespace TemplateHost

namespace Context

theorem executeAll_error (batch : List Fetched) {c : Context} {e : Failure}
    (hfail : (c.executeAll batch).1 = .error e) :
    ∃ path reason code, e = .loading path reason code := by
  induction batch generalizing c with
  | nil => cases hfail
  | cons f r ih =>
    unfold executeAll at hfail
    cases hresult : f.result with
    | error p =>
      rw [hresult] at hfail
      cases hfail
      exact ⟨_, _, _, rfl⟩
    | ok s =>
      rw [hresult] at hfail
      dsimp only at hfail
      cases hrun : c.execute f.path s with
      | mk q c' =>
        rw [hrun] at hfail
        cases q with
        | ok u => exact ih hfail
        | error e' =>
          cases hfail
          have hfirst : (c.execute f.path s).1 = .error e := congrArg Prod.fst hrun
          unfold execute at hfirst
          generalize c.run (fun k => Run.runSource k (Path.base f.path) s) = ran at hfirst
          obtain ⟨q, c''⟩ := ran
          cases q with
          | ok u => cases hfirst
          | error fault =>
            cases hfirst
            exact ⟨_, _, _, rfl⟩

theorem runSupport_error {c : Context} {support : List Fetched} {e : Failure}
    (hfail : (c.runSupport support).1 = .error e) :
    ∃ path reason code, e = .loading path reason code := by
  apply executeAll_error support (c := c)
  rcases runSupport_cases c support with ⟨d, -, hrun⟩ | ⟨e', d, hall, hrun⟩
  · rw [hrun] at hfail
    cases hfail
  · rw [hrun] at hfail
    rwa [hall]

end Context

namespace Stage
variable {α β : Type} {others : Others Host} {x y : Host × Nat}

/-- A stage in whose pauses others go on: its result, with the host after it and the number of the
next pause. -/
def amid (others : Others Host) (m : Stage α) (x : Host × Nat) : Except Problem α × Host × Nat :=
  (ExceptT.run m x.1).amid others x.2

theorem amid_host (others : Others Host) (x : Host × Nat) :
    amid others host x = (.ok x.1, x) := rfl

theorem amid_pure (others : Others Host) (a : α) (x : Host × Nat) :
    amid others (pure a) x = (.ok a, x) := rfl

theorem amid_attempt (others : Others Host) (f : Host → Except Problem α × Host) (x : Host × Nat) :
    amid others (attempt f) x = ((f x.1).1, (f x.1).2, x.2) := rfl

theorem amid_lift_atomic (others : Others Host) (f : Host → α × Host) (x : Host × Nat) :
    amid others (ExceptT.lift (Flow.atomic f)) x = (.ok (f x.1).1, (f x.1).2, x.2) := rfl

theorem amid_pause (others : Others Host) (x : Host × Nat) :
    amid others pause x = (.ok (), others x.2 x.1, x.2 + 1) := rfl

theorem amid_bind (others : Others Host) (m : Stage α) (f : α → Stage β) (x : Host × Nat) :
    amid others (m >>= f) x = match amid others m x with
      | (.ok a, y) => amid others (f a) y
      | (.error p, y) => (.error p, y) := by
  change ((ExceptT.run m x.1).bind fun r t => ExceptT.bindCont f r t).amid others x.2 = _
  rw [Outcome.amid_bind]
  change (ExceptT.bindCont f (amid others m x).1 (amid others m x).2.1).amid others
    (amid others m x).2.2 = _
  obtain ⟨r, y⟩ := amid others m x
  cases r with
  | ok a => rfl
  | error p => rfl

theorem amid_bind_ok {m : Stage α} {f : α → Stage β} {a : α} (hm : amid others m x = (.ok a, y)) :
    amid others (m >>= f) x = amid others (f a) y := by
  rw [amid_bind, hm]

theorem amid_bind_error {m : Stage α} {f : α → Stage β} {p : Problem} :
    (amid others (m >>= f) x).1 = .error p ↔ (amid others m x).1 = .error p ∨
      ∃ a y, amid others m x = (.ok a, y) ∧ (amid others (f a) y).1 = .error p := by
  rw [amid_bind]
  obtain ⟨r, y⟩ := amid others m x
  cases r with
  | ok a =>
    constructor
    · exact fun hf => Or.inr ⟨a, y, rfl, hf⟩
    · rintro (hm | ⟨b, z, hm, hf⟩)
      · cases hm
      · cases hm
        exact hf
  | error q => simp

theorem run_lift_bind (m : Stage α) (f : Except Problem α → Stage β) (h : Host) :
    ExceptT.run (ExceptT.lift (ExceptT.run m) >>= f) h =
      (ExceptT.run m h).bind fun r t => ExceptT.run (f r) t :=
  Outcome.bind_assoc (ExceptT.run m h)
    (fun r t => .done (Except.ok r : Except Problem (Except Problem α)) t)
    fun r t => ExceptT.bindCont f r t

end Stage

namespace Pipeline
open Host Stage
variable {others : Others Host} {plan : Plan} {dirty : List String} {h : Host} {p : Problem}
  {x y : Host × Nat} {locale : String}

def modulePaths (plan : Plan) (h : Host) (locale : String) : List String :=
  plan.files.map fun f => Layout.outputFile h.options plan.outputDir f (some locale)

/-- The compiler of a pass fails, or cannot be started. -/
def CompilationFails (others : Others Host) (plan : Plan) (dirty : List String) (h : Host)
    (p : Problem) : Prop :=
  (amid others (compileDirty plan dirty) (h, 0)).1 = .error p

/-- A pass whose compiler has succeeded comes to one of its locales. -/
def ComesTo (others : Others Host) (plan : Plan) (dirty : List String) (h : Host) (locale : String)
    (x : Host × Nat) : Prop :=
  ∃ y before after, amid others (compileDirty plan dirty) (h, 0) = (.ok (), y) ∧
    y.1.options.targets = before ++ locale :: after ∧
    amid others (postCompileAll plan before) y = (.ok (), x)

/-- Loading the modules of one of the locales fails. -/
def LoadingFails (others : Others Host) (plan : Plan) (dirty : List String) (h : Host)
    (p : Problem) : Prop :=
  ∃ locale x y, ComesTo others plan dirty h locale x ∧
    amid others (concat plan (modulePaths plan x.1 locale) locale) x = (.ok (), y) ∧
    y.1.loading = true ∧ (amid others (load locale (modulePaths plan x.1 locale)) y).1 = .error p

/-- A pass cannot compile, or cannot load what it has compiled. -/
def Fails (others : Others Host) (plan : Plan) (dirty : List String) (h : Host) (p : Problem) :
    Prop :=
  CompilationFails others plan dirty h p ∨ LoadingFails others plan dirty h p

/-- The modules that a pass joins are text, as far as they can be read. -/
def Decodes (others : Others Host) (plan : Plan) (dirty : List String) (h : Host) : Prop :=
  ∀ locale x, ComesTo others plan dirty h locale x → x.1.options.flag .concatOutput = true →
    ∀ path ∈ modulePaths plan x.1 locale, ∀ u, x.1.readSource path ≠ .error (.undecodable u)

theorem postCompileAll_error {locales : List String} :
    (amid others (postCompileAll plan locales) x).1 = .error p ↔
      ∃ before locale after y, locales = before ++ locale :: after ∧
        amid others (postCompileAll plan before) x = (.ok (), y) ∧
        (amid others (postCompile plan locale) y).1 = .error p := by
  induction locales generalizing x with
  | nil => simp [postCompileAll, amid_pure]
  | cons l r ih =>
    rw [postCompileAll, amid_bind_error]
    constructor
    · rintro (hfail | ⟨u, y, hok, hfail⟩)
      · exact ⟨[], l, r, x, rfl, rfl, hfail⟩
      · obtain ⟨before, locale, after, z, rfl, hbefore, hlocale⟩ := ih.mp hfail
        exact ⟨l :: before, locale, after, z, rfl, (amid_bind_ok hok).trans hbefore, hlocale⟩
    · rintro ⟨before, locale, after, z, heq, hbefore, hlocale⟩
      cases before with
      | nil =>
        obtain ⟨rfl, rfl⟩ := List.cons.inj heq
        obtain rfl : x = z := congrArg Prod.snd hbefore
        exact Or.inl hlocale
      | cons b before =>
        obtain ⟨rfl, rfl⟩ := List.cons.inj heq
        rw [postCompileAll, amid_bind] at hbefore
        cases hfirst : amid others (postCompile plan l) x with
        | mk q y =>
          rw [hfirst] at hbefore
          cases q with
          | error q => cases hbefore
          | ok u =>
            exact Or.inr ⟨u, y, rfl, ih.mpr ⟨before, locale, after, z, rfl, hbefore, hlocale⟩⟩

theorem postCompile_error :
    (amid others (postCompile plan locale) x).1 = .error p ↔
      (amid others (concat plan (modulePaths plan x.1 locale) locale) x).1 = .error p ∨
      ∃ y, amid others (concat plan (modulePaths plan x.1 locale) locale) x = (.ok (), y) ∧
        y.1.loading = true ∧
        (amid others (load locale (modulePaths plan x.1 locale)) y).1 = .error p := by
  unfold postCompile
  rw [amid_bind_ok (amid_host others x)]
  dsimp only
  rw [amid_bind_error]
  refine or_congr Iff.rfl ⟨?_, ?_⟩
  · rintro ⟨u, y, hconcat, hload⟩
    rw [amid_bind_ok (amid_host others y)] at hload
    by_cases hloading : y.1.loading = true
    · rw [if_pos hloading] at hload
      exact ⟨y, hconcat, hloading, hload⟩
    · rw [if_neg hloading] at hload
      cases hload
  · rintro ⟨y, hconcat, hloading, hload⟩
    refine ⟨(), y, hconcat, ?_⟩
    rw [amid_bind_ok (amid_host others y), if_pos hloading]
    exact hload

/-- A pass fails where its compiler, the joining of modules or their loading does. -/
theorem stages_error : (amid others (stages plan dirty) (h, 0)).1 = .error p ↔
    CompilationFails others plan dirty h p ∨ LoadingFails others plan dirty h p ∨
    ∃ locale x, ComesTo others plan dirty h locale x ∧
      (amid others (concat plan (modulePaths plan x.1 locale) locale) x).1 = .error p := by
  unfold stages
  rw [amid_bind_error]
  refine or_congr Iff.rfl ⟨?_, ?_⟩
  · rintro ⟨u, y, hcompile, hpost⟩
    rw [amid_bind_ok (amid_host others y)] at hpost
    obtain ⟨before, locale, after, z, htargets, hbefore, hfail⟩ := postCompileAll_error.mp hpost
    have hcomes : ComesTo others plan dirty h locale z :=
      ⟨y, before, after, hcompile, htargets, hbefore⟩
    rcases postCompile_error.mp hfail with hjoin | ⟨w, hjoined, hloading, hload⟩
    · exact Or.inr ⟨locale, z, hcomes, hjoin⟩
    · exact Or.inl ⟨locale, z, w, hcomes, hjoined, hloading, hload⟩
  · intro hfail
    obtain ⟨locale, z, ⟨y, before, after, hcompile, htargets, hbefore⟩, hfail⟩ :
        ∃ locale z, ComesTo others plan dirty h locale z ∧
          (amid others (postCompile plan locale) z).1 = .error p := by
      rcases hfail with ⟨locale, z, w, hcomes, hload⟩ | ⟨locale, z, hcomes, hjoin⟩
      · exact ⟨locale, z, hcomes, postCompile_error.mpr (Or.inr ⟨w, hload⟩)⟩
      · exact ⟨locale, z, hcomes, postCompile_error.mpr (Or.inl hjoin)⟩
    refine ⟨(), y, hcompile, ?_⟩
    rw [amid_bind_ok (amid_host others y)]
    exact postCompileAll_error.mpr ⟨before, locale, after, z, htargets, hbefore, hfail⟩

theorem compile_error {args : List String} {cwd : String}
    (hfail : (compile args cwd h).1 = .error p) : p.isReported = true ∨ ∃ f, p = .fault f := by
  unfold compile at hfail
  dsimp only at hfail
  split at hfail
  · cases hfail
    exact Or.inl rfl
  · cases hfail
    exact Or.inr ⟨_, rfl⟩
  · split at hfail
    · cases hfail
    · cases hfail
      exact Or.inl rfl

theorem CompilationFails.cases (hfail : CompilationFails others plan dirty h p) :
    p.isReported = true ∨ ∃ f, p = .fault f := by
  unfold CompilationFails compileDirty at hfail
  split at hfail
  · cases hfail
  · rw [amid_bind_ok (amid_host others _)] at hfail
    split at hfail
    · cases hfail
      exact Or.inl rfl
    · exact compile_error hfail

theorem onContext_error {f : Context → Except Failure Unit × Context}
    (hfail : (amid others (onContext locale f) x).1 = .error p) :
    ∃ c e, (f c).1 = .error e ∧ p = .failure e := by
  change (f (x.1.context (some locale))).1.mapError .failure = .error p at hfail
  cases hf : (f (x.1.context (some locale))).1 with
  | ok u =>
    rw [hf] at hfail
    cases hfail
  | error e =>
    rw [hf] at hfail
    cases hfail
    exact ⟨_, e, hf, rfl⟩

theorem prepare_error (hfail : (amid others (prepare locale) x).1 = .error p) :
    ∃ path reason code, p = .failure (.loading path reason code) := by
  unfold prepare at hfail
  rw [amid_bind_ok (amid_host others x)] at hfail
  split at hfail
  · obtain ⟨c, e, hreset, -⟩ := onContext_error hfail
    cases hreset
  · rw [amid_bind_ok (amid_attempt others _ x), amid_bind_ok (amid_pause others _)] at hfail
    obtain ⟨c, e, hsupport, rfl⟩ := onContext_error hfail
    obtain ⟨path, reason, code, rfl⟩ := Context.runSupport_error hsupport
    exact ⟨path, reason, code, rfl⟩

theorem fetchBatch_error {paths : List String} :
    (amid others (fetchBatch paths) x).1 ≠ .error p := by
  unfold fetchBatch
  rw [amid_bind_ok (amid_host others x)]
  dsimp only
  split
  · rw [amid_bind_ok (amid_pause others x)]
    exact nofun
  · exact nofun

theorem load_error {paths : List String}
    (hfail : (amid others (load locale paths) x).1 = .error p) :
    ∃ path reason code, p = .failure (.loading path reason code) := by
  rcases amid_bind_error.mp hfail with hprepare | ⟨_, y, -, hfail⟩
  · exact prepare_error hprepare
  · rcases amid_bind_error.mp hfail with hfetch | ⟨batch, z, -, hrun⟩
    · exact absurd hfetch fetchBatch_error
    · obtain ⟨c, e, hbatch, rfl⟩ := onContext_error hrun
      obtain ⟨path, reason, code, rfl⟩ := Context.executeAll_error batch hbatch
      exact ⟨path, reason, code, rfl⟩

theorem Fails.cases (hfail : Fails others plan dirty h p) :
    p.isReported = true ∨ ∃ f, p = .fault f := by
  rcases hfail with hcompile | ⟨locale, x, y, -, -, -, hload⟩
  · exact hcompile.cases
  · obtain ⟨_, _, _, rfl⟩ := load_error hload
    exact Or.inl rfl

theorem readAll_error {paths : List String} (hfail : readAll h paths = .error p) :
    ∃ path ∈ paths, h.readSource path = .error p := by
  have hmap : paths.mapM h.readSource = .error p := by
    unfold readAll at hfail
    cases hread : paths.mapM h.readSource with
    | ok texts =>
      rw [hread] at hfail
      cases hfail
    | error q =>
      rw [hread] at hfail
      cases hfail
      rfl
  clear hfail
  induction paths with
  | nil => cases hmap
  | cons path r ih =>
    rw [List.mapM_cons] at hmap
    cases hread : h.readSource path with
    | error q =>
      rw [hread] at hmap
      cases hmap
      exact ⟨path, List.mem_cons_self, hread⟩
    | ok s =>
      rw [hread] at hmap
      cases hrest : r.mapM h.readSource with
      | ok texts =>
        rw [hrest] at hmap
        cases hmap
      | error q =>
        rw [hrest] at hmap
        cases hmap
        obtain ⟨path', hmem, herror⟩ := ih hrest
        exact ⟨path', List.mem_cons_of_mem _ hmem, herror⟩

theorem readSource_error {path : String} (hfail : h.readSource path = .error p) :
    (∃ e, p = .file e) ∨ ∃ u, p = .undecodable u := by
  unfold readSource at hfail
  split at hfail
  · cases hfail
    exact Or.inl ⟨_, rfl⟩
  · next c _ =>
    cases hread : Content.read c with
    | ok s =>
      rw [hread] at hfail
      cases hfail
    | error u =>
      rw [hread] at hfail
      cases hfail
      exact Or.inr ⟨u, rfl⟩

theorem concatInto_error {paths : List String} {target : String}
    (hfail : (concatInto paths target h).1 = .error p) :
    ∃ path ∈ paths, ∃ u, h.readSource path = .error (.undecodable u) ∧ p = .undecodable u := by
  unfold concatInto at hfail
  cases hread : readAll h paths with
  | ok s =>
    rw [hread] at hfail
    dsimp only at hfail
    unfold writeConcat at hfail
    cases hwrite : h.tree.write (Path.tidy target) (Content.ofSource s) with
    | ok t =>
      rw [hwrite] at hfail
      cases hfail
    | error kind =>
      rw [hwrite] at hfail
      cases hfail
  | error q =>
    obtain ⟨path, hpath, hsource⟩ := readAll_error hread
    rcases readSource_error hsource with ⟨e, rfl⟩ | ⟨u, rfl⟩
    · rw [hread] at hfail
      cases hfail
    · rw [hread] at hfail
      exact ⟨path, hpath, u, hsource, (Except.error.inj hfail).symm⟩

theorem concat_error {paths : List String}
    (hfail : (amid others (concat plan paths locale) x).1 = .error p) :
    x.1.options.flag .concatOutput = true ∧
      ∃ path ∈ paths, ∃ u, x.1.readSource path = .error (.undecodable u) ∧ p = .undecodable u := by
  unfold concat at hfail
  rw [amid_bind_ok (amid_host others x)] at hfail
  split at hfail
  · cases hfail
  · next hflag =>
    rw [amid_bind_ok (amid_lift_atomic others _ x), amid_bind_ok (amid_pause others _)] at hfail
    refine ⟨by simpa using hflag, ?_⟩
    dsimp only at hfail
    cases hjoin : (concatInto paths
        (Layout.concatFile x.1.options plan.outputDir (some locale)) x.1).1 with
    | ok u =>
      rw [hjoin] at hfail
      cases hfail
    | error q =>
      rw [hjoin] at hfail
      obtain rfl : q = p := Except.error.inj hfail
      exact concatInto_error hjoin

/-- Where modules are text, only compiling and loading can fail. -/
theorem stages_error_of_decodes (hdec : Decodes others plan dirty h) :
    (amid others (stages plan dirty) (h, 0)).1 = .error p ↔ Fails others plan dirty h p := by
  rw [stages_error]
  refine or_congr Iff.rfl ⟨?_, Or.inl⟩
  rintro (hload | ⟨locale, x, hcomes, hjoin⟩)
  · exact hload
  · obtain ⟨hflag, path, hpath, u, hread, -⟩ := concat_error hjoin
    exact absurd hread (hdec locale x hcomes hflag path hpath u)

end Pipeline

end TemplateHost
