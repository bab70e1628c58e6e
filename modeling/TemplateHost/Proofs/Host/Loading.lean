import TemplateHost.Proofs.Context.Batch
import TemplateHost.Proofs.Files.Tree
import TemplateHost.Proofs.Host.Stage

/-!
# Loading for one locale after the other

Loading into new contexts leaves each in the state that a new context has after its files have run
in order, as they were before the first of them was loaded, as long as no joined file is written
over one of them.
-/
namespace TemplateHost

namespace Context
variable {c c' : Context} {support batch : List Fetched}

theorem executeAll_ok (h : c.executeAll batch = (.ok (), c')) :
    ∀ f ∈ batch, ∃ s, f.result = .ok s := by
  induction batch generalizing c with
  | nil => exact nofun
  | cons f r ih =>
    unfold executeAll at h
    cases hf : f.result with
    | error p =>
      rw [hf] at h
      cases h
    | ok s =>
      rw [hf] at h
      dsimp only at h
      cases hrun : c.execute f.path s with
      | mk result c₁ =>
        rw [hrun] at h
        cases result with
        | error e => cases h
        | ok u =>
          intro g hg
          rcases List.mem_cons.mp hg with rfl | hg
          · exact ⟨s, hf⟩
          · exact ih h g hg

theorem runSupport_ok (h : c.runSupport support = (.ok (), c')) :
    (∀ f ∈ support, ∃ s, f.result = .ok s) ∧ c'.initialized = true := by
  rcases runSupport_cases c support with ⟨d, hall, hrun⟩ | ⟨e, d, -, hrun⟩
  · rw [hrun] at h
    obtain rfl := congrArg Prod.snd h
    exact ⟨executeAll_ok hall, rfl⟩
  · rw [hrun] at h
    cases h

theorem loadBatch_ok (h : c.loadBatch batch = (.ok (), c')) :
    ∀ f ∈ batch, ∃ s, f.result = .ok s := by
  unfold loadBatch at h
  cases hrun : c.executeAll batch with
  | mk result c₁ =>
    rw [hrun] at h
    obtain rfl : result = .ok () := (Prod.mk.inj h).1
    exact executeAll_ok hrun

theorem executeAll_initialized (c : Context) (batch : List Fetched) :
    (c.executeAll batch).2.initialized = c.initialized :=
  executeAll_induction (P := fun d => d.initialized = c.initialized) (fun _ _ _ h => h) rfl
    batch

theorem loadBatch_initialized (h : c.loadBatch batch = (.ok (), c')) :
    c'.initialized = c.initialized := by
  have hkeep : (c.loadBatch batch).2.initialized = c.initialized :=
    executeAll_initialized c batch
  rwa [h] at hkeep

theorem load_initialized (h : c.load support batch = (.ok (), c')) : c'.initialized = true := by
  unfold load at h
  by_cases hc : c.initialized = true
  · rw [if_pos hc] at h
    exact (loadBatch_initialized h).trans hc
  · rw [if_neg hc] at h
    cases hrun : c.runSupport support with
    | mk result c₁ =>
      rw [hrun] at h
      cases result with
      | error e => cases h
      | ok u => exact (loadBatch_initialized h).trans (runSupport_ok hrun).2

end Context

namespace Host
open Context
variable {h₀ h h' : Host} {kept : List String} {locale : String}

def readPlace (h : Host) (path : String) : Place := Path.place h.tree.cwd (Path.tidy path)

/-- The source of a support file: what was read first, if it has been read before. -/
def supportSource (h : Host) (path : String) : Except Problem Source :=
  match h.supportSources.get? path with
  | some s => .ok s
  | none => h.readSource path

def supportFiles (h : Host) : List Fetched := h.supportPaths.map fun p => ⟨p, h.supportSource p⟩

/-- Loading is under way. What can be read at the paths that matter is what could be read at
first. -/
structure Loading (h₀ : Host) (kept : List String) (h : Host) : Prop where
  options : h.options = h₀.options
  surroundings : h.surroundings = h₀.surroundings
  cwd : h.tree.cwd = h₀.tree.cwd
  reads (p : String) (s : Source) : p ∈ kept → h.readSource p = .ok s → h₀.readSource p = .ok s
  support (p : String) (s : Source) : p ∈ kept → h.supportSource p = .ok s →
    h₀.supportSource p = .ok s

theorem Loading.supportPaths (hl : Loading h₀ kept h) : h.supportPaths = h₀.supportPaths := by
  unfold Host.supportPaths
  rw [hl.options, hl.surroundings]

theorem Loading.fetch (hl : Loading h₀ kept h) {p : String} (hp : p ∈ kept)
    (hok : ∃ s, (h.fetch p).result = .ok s) : h.fetch p = h₀.fetch p := by
  obtain ⟨s, hs⟩ := hok
  have hs' : h.readSource p = .ok s := hs
  unfold Host.fetch
  rw [hs', hl.reads p s hp hs']

theorem supportSource_set (h : Host) {p : String} {s : Source} (hs : h.supportSource p = .ok s)
    (q : String) : ({ h with supportSources := h.supportSources.set p s } : Host).supportSource q =
      h.supportSource q := by
  unfold supportSource at hs ⊢
  dsimp only
  by_cases hq : q = p
  · subst q
    rw [Table.get?_set_self, hs]
  · rw [Table.get?_set_ne _ hq]
    rfl

/-- A support file that could be read is kept in memory. Nothing else changes. -/
theorem fetchSupport_eq (h : Host) (p : String) : ∃ m, h.fetchSupport p =
      (⟨p, h.supportSource p⟩, { h with supportSources := m }) ∧
    ∀ q, ({ h with supportSources := m } : Host).supportSource q = h.supportSource q := by
  have hset (s : Source) (hs : h.supportSource p = .ok s) := supportSource_set h hs
  unfold Host.fetchSupport
  unfold supportSource at hset ⊢
  cases hm : h.supportSources.get? p with
  | some s => exact ⟨h.supportSources, rfl, fun _ => rfl⟩
  | none =>
    rw [hm] at hset
    dsimp only at hset ⊢
    cases hr : h.readSource p with
    | ok s => exact ⟨_, rfl, hset s hr⟩
    | error e => exact ⟨h.supportSources, rfl, fun _ => rfl⟩

theorem fetchAllSupport_eq (paths : List String) (h : Host) : ∃ m, fetchAllSupport paths h =
      (paths.map fun p => ⟨p, h.supportSource p⟩, { h with supportSources := m }) ∧
    ∀ q, ({ h with supportSources := m } : Host).supportSource q = h.supportSource q := by
  induction paths generalizing h with
  | nil => exact ⟨h.supportSources, rfl, fun _ => rfl⟩
  | cons p r ih =>
    obtain ⟨m₁, hone, hsame₁⟩ := fetchSupport_eq h p
    obtain ⟨m₂, hrest, hsame₂⟩ := ih { h with supportSources := m₁ }
    refine ⟨m₂, ?_, fun q => (hsame₂ q).trans (hsame₁ q)⟩
    unfold fetchAllSupport
    rw [hone]
    dsimp only
    rw [hrest]
    simp only [hsame₁]
    rfl

theorem Loading.supportFiles (hl : Loading h₀ kept h) (hkept : h₀.supportPaths ⊆ kept)
    (hok : ∀ f ∈ h.supportFiles, ∃ s, f.result = .ok s) : h.supportFiles = h₀.supportFiles := by
  unfold Host.supportFiles at hok ⊢
  rw [hl.supportPaths] at hok ⊢
  refine List.map_congr_left fun p hp => ?_
  obtain ⟨s, hs⟩ := hok _ (List.mem_map_of_mem hp)
  have hs' : h.supportSource p = .ok s := hs
  rw [hs', hl.support p s (hkept hp) hs']

theorem Loading.fetched (hl : Loading h₀ kept h) {paths : List String} (hkept : paths ⊆ kept)
    (hok : ∀ f ∈ paths.map h.fetch, ∃ s, f.result = .ok s) :
    paths.map h.fetch = paths.map h₀.fetch :=
  List.map_congr_left fun _ hp => hl.fetch (hkept hp) (hok _ (List.mem_map_of_mem hp))

theorem Loading.remember (hl : Loading h₀ kept h) {m : Table String Source}
    (hsame : ∀ q, ({ h with supportSources := m } : Host).supportSource q = h.supportSource q) :
    Loading h₀ kept { h with supportSources := m } :=
  ⟨hl.options, hl.surroundings, hl.cwd, hl.reads, fun p s hp hs =>
    hl.support p s hp ((hsame p).symm.trans hs)⟩

theorem Loading.setContext (hl : Loading h₀ kept h) (c : Context) :
    Loading h₀ kept (h.setContext (some locale) c) :=
  ⟨hl.options, hl.surroundings, hl.cwd, hl.reads, hl.support⟩

theorem Loading.write (hl : Loading h₀ kept h) {path : String} {c : Content} {t : FileTree}
    (hwrite : h.tree.write (Path.tidy path) c = .ok t)
    (hapart : ∀ p ∈ kept, h₀.readPlace p ≠ h₀.readPlace path) :
    Loading h₀ kept { h with tree := t } := by
  have hreads (p : String) (s : Source) (hp : p ∈ kept)
      (hs : ({ h with tree := t } : Host).readSource p = .ok s) : h.readSource p = .ok s := by
    have hne := hapart p hp
    unfold readPlace at hne
    rw [← hl.cwd] at hne
    unfold readSource at hs ⊢
    dsimp only at hs
    cases hcont : t.content (Path.tidy p) with
    | error e =>
      rw [hcont] at hs
      cases hs
    | ok d =>
      rw [hcont] at hs
      rw [FileTree.content_of_write hwrite hne hcont]
      exact hs
  obtain ⟨q, -, ht, -⟩ := FileTree.write_ok hwrite
  refine ⟨hl.options, hl.surroundings, ?_, fun p s hp hs => hl.reads p s hp (hreads p s hp hs),
    fun p s hp hs => hl.support p s hp ?_⟩
  · rw [← hl.cwd, ht]
    rfl
  · unfold supportSource at hs ⊢
    dsimp only at hs
    cases hm : h.supportSources.get? p with
    | some r =>
      rw [hm] at hs
      exact hs
    | none =>
      rw [hm] at hs
      exact hreads p s hp hs

theorem context_of_new (h : Host) (hne : locale ≠ "") (hnew : h.contexts.get? locale = none) :
    h.context (some locale) = .new locale := by
  simp [context, Layout.localeOrDefault, hne, hnew]

theorem context_setContext (h : Host) (c : Context) :
    (h.setContext (some locale) c).context (some locale) = c := by
  simp [context, setContext, Table.get?_set_self]

theorem context_congr (hne : locale ≠ "")
    (heq : h'.contexts.get? locale = h.contexts.get? locale) :
    h'.context (some locale) = h.context (some locale) := by
  simp [context, Layout.localeOrDefault, hne, heq]

theorem contexts_setContext_ne (h : Host) (c : Context) (hne : locale ≠ "") {m : String}
    (hm : m ≠ locale) : (h.setContext (some locale) c).contexts.get? m = h.contexts.get? m := by
  simp [setContext, Layout.localeOrDefault, hne, Table.get?_set_ne _ hm]

end Host

namespace Pipeline
open Context Host Stage
variable {h₀ h h' : Host} {kept paths : List String} {locale : String} {plan : Plan}

theorem perform_onContext (f : Context → Except Failure Unit × Context) (h : Host) :
    perform (onContext locale f) h =
      ((f (h.context (some locale))).1.mapError .failure,
        h.setContext (some locale) (f (h.context (some locale))).2) := rfl

theorem onContext_ok {f : Context → Except Failure Unit × Context}
    (hok : perform (onContext locale f) h = (.ok (), h')) :
    ∃ c, f (h.context (some locale)) = (.ok (), c) ∧ h' = h.setContext (some locale) c := by
  rw [perform_onContext] at hok
  obtain ⟨hresult, rfl⟩ := Prod.mk.inj hok
  cases hf : f (h.context (some locale)) with
  | mk r c =>
    rw [hf] at hresult
    cases r with
    | ok u => exact ⟨c, rfl, rfl⟩
    | error e => cases hresult

theorem perform_prepare_eq (locale : String) (h : Host) :
    ∃ m, perform (prepare locale) h =
        (((h.context (some locale)).ready h.supportFiles).1.mapError .failure,
          ({ h with supportSources := m } : Host).setContext (some locale)
            ((h.context (some locale)).ready h.supportFiles).2) ∧
      ∀ q, ({ h with supportSources := m } : Host).supportSource q = h.supportSource q := by
  unfold prepare Context.ready
  rw [perform_bind_ok (perform_host h)]
  by_cases hinit : (h.context (some locale)).initialized = true
  · rw [if_pos hinit, if_pos hinit, perform_onContext]
    exact ⟨h.supportSources, rfl, fun _ => rfl⟩
  · obtain ⟨m, hfetch, hsame⟩ := fetchAllSupport_eq h.supportPaths h
    have hattempt : perform (attempt fun h =>
        (Except.ok (fetchAllSupport h.supportPaths h).1, (fetchAllSupport h.supportPaths h).2)) h =
          (.ok h.supportFiles, { h with supportSources := m }) := by
      rw [perform_attempt, hfetch]
      rfl
    rw [if_neg hinit, if_neg hinit, perform_bind_ok hattempt, perform_bind_ok (perform_pause _),
      perform_onContext]
    exact ⟨m, rfl, hsame⟩

theorem prepare_ok (hne : locale ≠ "") (hnew : h.contexts.get? locale = none)
    (hok : perform (prepare locale) h = (.ok (), h')) :
    ∃ m c, (Context.new locale).runSupport h.supportFiles = (.ok (), c) ∧
      h' = ({ h with supportSources := m } : Host).setContext (some locale) c ∧
      ∀ q, ({ h with supportSources := m } : Host).supportSource q = h.supportSource q := by
  obtain ⟨m, hprepare, hsame⟩ := perform_prepare_eq locale h
  have hready : (h.context (some locale)).ready h.supportFiles =
      (Context.new locale).runSupport h.supportFiles := by
    rw [context_of_new h hne hnew]
    rfl
  rw [hprepare, hready] at hok
  obtain ⟨hresult, rfl⟩ := Prod.mk.inj hok
  cases hrun : (Context.new locale).runSupport h.supportFiles with
  | mk r c =>
    rw [hrun] at hresult
    cases r with
    | ok u => exact ⟨m, c, rfl, rfl, hsame⟩
    | error e => cases hresult

theorem perform_fetchBatch (paths : List String) (h : Host) : perform (fetchBatch paths) h =
    (.ok ((h.options.texts .contextPaths ++ paths).map h.fetch), h) := by
  unfold fetchBatch
  rw [perform_bind_ok (perform_host h)]
  dsimp only
  split
  · rw [perform_bind_ok (perform_pause h), perform_pure]
  · exact perform_pure _ h

/-- Files that are loaded into a new context run after its support code, all as they were. -/
theorem load_ok (hl : Loading h₀ kept h) (hne : locale ≠ "")
    (hnew : h.contexts.get? locale = none) (hsupport : h₀.supportPaths ⊆ kept)
    (hkept : h₀.options.texts .contextPaths ++ paths ⊆ kept)
    (hok : perform (load locale paths) h = (.ok (), h')) :
    Loading h₀ kept h' ∧ (∀ m, m ≠ locale → h'.contexts.get? m = h.contexts.get? m) ∧
      (Context.new locale).load h₀.supportFiles
          ((h₀.options.texts .contextPaths ++ paths).map h₀.fetch) =
        (.ok (), h'.context (some locale)) := by
  unfold load at hok
  obtain ⟨_, h₂, hprepare, hok⟩ := exists_of_perform_bind_ok hok
  obtain ⟨m, c, hrun, heq, hsame⟩ := prepare_ok hne hnew hprepare
  have hl₂ : Loading h₀ kept h₂ := by
    rw [heq]
    exact (hl.remember hsame).setContext c
  have hfiles := hl.supportFiles hsupport (runSupport_ok hrun).1
  rw [perform_bind_ok (perform_fetchBatch paths h₂), hl₂.options] at hok
  obtain ⟨d, hload, rfl⟩ := onContext_ok hok
  have hbatch := hl₂.fetched hkept (loadBatch_ok hload)
  refine ⟨hl₂.setContext d, fun n hn => ?_, ?_⟩
  · rw [contexts_setContext_ne _ _ hne hn, heq, contexts_setContext_ne _ _ hne hn]
  · rw [heq, context_setContext] at hload
    rw [context_setContext, ← hfiles, ← hbatch, heq]
    unfold Context.load
    rw [if_neg (by exact Bool.false_ne_true), hrun]
    exact hload

theorem concatInto_eq (paths : List String) (target : String) (h : Host) :
    ∃ t log, (concatInto paths target h).2 = { h with tree := t, log := log } ∧
      (t = h.tree ∨ ∃ c, h.tree.write (Path.tidy target) c = .ok t) := by
  unfold concatInto
  cases readAll h paths with
  | error p =>
    cases p with
    | file e => exact ⟨_, _, rfl, Or.inl rfl⟩
    | _ => exact ⟨_, _, rfl, Or.inl rfl⟩
  | ok s =>
    unfold writeConcat
    dsimp only
    cases hw : h.tree.write (Path.tidy target) (Content.ofSource s) with
    | error k => exact ⟨_, _, rfl, Or.inl rfl⟩
    | ok t => exact ⟨_, _, rfl, Or.inr ⟨_, hw⟩⟩

theorem concat_ok (hok : perform (concat plan paths locale) h = (.ok (), h')) :
    ∃ t log, h' = { h with tree := t, log := log } ∧
      (t = h.tree ∨ h.options.flag .concatOutput = true ∧ ∃ c, h.tree.write
        (Path.tidy (Layout.concatFile h.options plan.outputDir (some locale))) c = .ok t) := by
  have hlift (r : Except Problem Unit) (h : Host) : (perform (concat.liftExcept r) h).2 = h := by
    cases r <;> rfl
  unfold concat at hok
  rw [perform_bind_ok (perform_host h)] at hok
  by_cases hflag : h.options.flag .concatOutput = true
  · rw [if_neg (by simp [hflag]), perform_bind_ok (perform_lift _ h),
      perform_bind_ok (perform_pause _)] at hok
    have hstate := congrArg Prod.snd hok
    rw [hlift] at hstate
    obtain ⟨t, log, heq, ht⟩ := concatInto_eq paths
      (Layout.concatFile h.options plan.outputDir (some locale)) h
    exact ⟨t, log, hstate.symm.trans heq, ht.imp_right fun hw => ⟨hflag, hw⟩⟩
  · rw [if_pos (by simpa using hflag)] at hok
    exact ⟨h.tree, h.log, (Prod.mk.inj hok).2.symm, Or.inl rfl⟩

theorem loading_concat (hl : Loading h₀ kept h)
    (hapart : h₀.options.flag .concatOutput = true → ∀ p ∈ kept, h₀.readPlace p ≠
      h₀.readPlace (Layout.concatFile h₀.options plan.outputDir (some locale)))
    (hok : perform (concat plan paths locale) h = (.ok (), h')) :
    Loading h₀ kept h' ∧ h'.contexts = h.contexts := by
  obtain ⟨t, log, rfl, ht⟩ := concat_ok hok
  refine ⟨?_, rfl⟩
  have htree : Loading h₀ kept { h with tree := t } := by
    rcases ht with rfl | ⟨hflag, c, hwrite⟩
    · exact hl
    · rw [hl.options] at hflag hwrite
      exact hl.write hwrite (hapart hflag)
  exact ⟨htree.options, htree.surroundings, htree.cwd, htree.reads, htree.support⟩

def batchPaths (h : Host) (root : String) (files : List String) (locale : String) : List String :=
  h.options.texts .contextPaths ++
    files.map fun f => Layout.outputFile h.options root f (some locale)

def loadedPaths (h : Host) (root : String) (files : List String) : List String :=
  h.supportPaths ++ h.options.targets.flatMap (batchPaths h root files)

/-- No joined file takes the place of a file that is loaded. -/
def Unjoined (h : Host) (root : String) (files : List String) : Prop :=
  h.options.flag .concatOutput = true → ∀ l ∈ h.options.targets, ∀ p ∈ loadedPaths h root files,
    h.readPlace p ≠ h.readPlace (Layout.concatFile h.options root (some l))

theorem postCompile_ok (hl : Loading h₀ (loadedPaths h₀ plan.outputDir plan.files) h)
    (hload : h₀.loading = true) (hunjoined : Unjoined h₀ plan.outputDir plan.files)
    (hlocale : locale ∈ h₀.options.targets) (hne : locale ≠ "")
    (hnew : h.contexts.get? locale = none)
    (hok : perform (postCompile plan locale) h = (.ok (), h')) :
    Loading h₀ (loadedPaths h₀ plan.outputDir plan.files) h' ∧
      (∀ m, m ≠ locale → h'.contexts.get? m = h.contexts.get? m) ∧
      (Context.new locale).load h₀.supportFiles
          ((batchPaths h₀ plan.outputDir plan.files locale).map h₀.fetch) =
        (.ok (), h'.context (some locale)) := by
  unfold postCompile at hok
  rw [perform_bind_ok (perform_host h)] at hok
  obtain ⟨_, h₂, hconcat, hok⟩ := exists_of_perform_bind_ok hok
  obtain ⟨hl₂, hcontexts⟩ := loading_concat hl (fun hflag => hunjoined hflag locale hlocale) hconcat
  have hloading : h₂.loading = true := by
    unfold Host.loading
    rw [hl₂.options]
    exact hload
  rw [perform_bind_ok (perform_host h₂), if_pos hloading, hl.options] at hok
  have hbatch : batchPaths h₀ plan.outputDir plan.files locale ⊆
      loadedPaths h₀ plan.outputDir plan.files := fun p hp =>
    List.mem_append_right _ (List.mem_flatMap.mpr ⟨locale, hlocale, hp⟩)
  rw [← hcontexts] at hnew ⊢
  exact load_ok hl₂ hne hnew (List.subset_append_left _ _) hbatch hok

/-- Each locale has loaded its own files into its own context. -/
theorem postCompileAll_ok (plan : Plan) {locales : List String}
    (hl : Loading h₀ (loadedPaths h₀ plan.outputDir plan.files) h) (hload : h₀.loading = true)
    (hunjoined : Unjoined h₀ plan.outputDir plan.files) (hnodup : locales.Nodup)
    (hlocales : ∀ l ∈ locales, l ∈ h₀.options.targets ∧ l ≠ "" ∧ h.contexts.get? l = none)
    (hok : perform (postCompileAll plan locales) h = (.ok (), h')) :
    (∀ m, m ∉ locales → h'.contexts.get? m = h.contexts.get? m) ∧
    ∀ l ∈ locales, (Context.new l).load h₀.supportFiles
        ((batchPaths h₀ plan.outputDir plan.files l).map h₀.fetch) =
      (.ok (), h'.context (some l)) := by
  induction locales generalizing h with
  | nil =>
    obtain rfl : h = h' := (Prod.mk.inj hok).2
    exact ⟨fun _ _ => rfl, nofun⟩
  | cons l r ih =>
    unfold postCompileAll at hok
    obtain ⟨_, h₂, hone, hrest⟩ := exists_of_perform_bind_ok hok
    obtain ⟨hlr, hr⟩ := List.nodup_cons.mp hnodup
    obtain ⟨⟨htarget, hne, hnew⟩, hothers⟩ := List.forall_mem_cons.mp hlocales
    obtain ⟨hl₂, hsame, hfirst⟩ := postCompile_ok hl hload hunjoined htarget hne hnew hone
    have hmore : ∀ m ∈ r, m ∈ h₀.options.targets ∧ m ≠ "" ∧ h₂.contexts.get? m = none := by
      intro m hm
      obtain ⟨htarget, hne, hnew⟩ := hothers m hm
      have hml : m ≠ l := by
        rintro rfl
        exact hlr hm
      exact ⟨htarget, hne, (hsame m hml).trans hnew⟩
    obtain ⟨hkeep, hload⟩ := ih hl₂ hr hmore hrest
    constructor
    · intro m hm
      rw [List.mem_cons, not_or] at hm
      obtain ⟨hml, hmr⟩ := hm
      exact (hkeep m hmr).trans (hsame m hml)
    · intro m hm
      rcases List.mem_cons.mp hm with rfl | hm
      · -- What came later was loaded into other contexts.
        rw [context_congr hne (hkeep m hlr)]
        exact hfirst
      · exact hload m hm

end Pipeline

end TemplateHost
