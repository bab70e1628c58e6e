import TemplateHost.Proofs.Files.Trail
import TemplateHost.Proofs.Host.Alike
import TemplateHost.Proofs.Host.Announcement
import TemplateHost.Proofs.Host.Batch
import TemplateHost.Proofs.Host.Localization

/-!
# Joined output

A pass that joins its output is compared with the same pass without joining. They compile the same,
and as long as no joined file comes in the way of a file that is loaded, they read and load the same
from there on. Joining may fail to read or to write; that is logged. Only a file that is not text
ends the pass.
-/
namespace TemplateHost

theorem Invocation.arguments_set_joining (o : Options) (s : Setting) (root : String)
    (files : List String) :
    arguments (o.set .concatOutput s) root files = arguments o root files := rfl

namespace Host
variable {plan : Plan} {off : Setting} {h₀ h h' : Host}

def notJoining (off : Setting) (h : Host) : Host :=
  { h with options := h.options.set .concatOutput off }

def joinedFile (h : Host) (plan : Plan) (locale : String) : String :=
  Layout.concatFile h.options plan.outputDir (some locale)

/-- No joined file lies where the host comes by when it loads. -/
def Clear (h : Host) (plan : Plan) : Prop :=
  ∀ l ∈ h.options.targets, ∀ p ∈ Pipeline.loadedPaths h plan.outputDir plan.files,
    h.readPlace (h.joinedFile plan l) ∉ Path.trail h.tree.cwd (Path.tidy p)

/-- Since `h₀`, one host has joined and loaded and the other one has only loaded. -/
structure Beside (plan : Plan) (off : Setting) (h₀ h h' : Host) : Prop where
  options : h.options = h₀.options
  options' : h'.options = h₀.options.set .concatOutput off
  surroundings : h.surroundings = h₀.surroundings
  surroundings' : h'.surroundings = h₀.surroundings
  cwd : h.tree.cwd = h₀.tree.cwd
  tree' : h'.tree = h₀.tree
  content (p : String) : p ∈ Pipeline.loadedPaths h₀ plan.outputDir plan.files →
    h.tree.content (Path.tidy p) = h₀.tree.content (Path.tidy p)
  supportSource (p : String) : p ∈ Pipeline.loadedPaths h₀ plan.outputDir plan.files →
    h'.supportSource p = h.supportSource p
  contexts : h'.contexts = h.contexts

theorem Beside.refl (plan : Plan) (off : Setting) (h : Host) :
    Beside plan off h h (h.notJoining off) :=
  ⟨rfl, rfl, rfl, rfl, rfl, rfl, fun _ _ => rfl, fun _ _ => rfl, rfl⟩

theorem Beside.readSource (hb : Beside plan off h₀ h h') {p : String}
    (hp : p ∈ Pipeline.loadedPaths h₀ plan.outputDir plan.files) :
    h.readSource p = h₀.readSource p := by
  unfold Host.readSource
  rw [hb.content p hp]

theorem Beside.readSource' (hb : Beside plan off h₀ h h') (p : String) :
    h'.readSource p = h₀.readSource p := by
  unfold Host.readSource
  rw [hb.tree']

theorem Beside.supportPaths (hb : Beside plan off h₀ h h') : h.supportPaths = h₀.supportPaths := by
  unfold Host.supportPaths
  rw [hb.surroundings, hb.options]

theorem Beside.supportPaths' (hb : Beside plan off h₀ h h') :
    h'.supportPaths = h₀.supportPaths := by
  unfold Host.supportPaths
  rw [hb.surroundings', hb.options', Options.text_set_ne _ _ (by decide)]

theorem Beside.supportFiles (hb : Beside plan off h₀ h h') : h'.supportFiles = h.supportFiles := by
  unfold Host.supportFiles
  rw [hb.supportPaths, hb.supportPaths']
  refine List.map_congr_left fun p hp => ?_
  rw [hb.supportSource p (List.mem_append_left _ hp)]

theorem Beside.context (hb : Beside plan off h₀ h h') (locale : Option String) :
    h'.context locale = h.context locale := by
  unfold Host.context
  rw [hb.contexts]

theorem Beside.setContext (hb : Beside plan off h₀ h h') (locale : Option String) (c : Context) :
    Beside plan off h₀ (h.setContext locale c) (h'.setContext locale c) :=
  { hb with contexts := congrArg (·.set (Layout.localeOrDefault locale) c) hb.contexts }

theorem Beside.remember (hb : Beside plan off h₀ h h') {m m' : Table String Source}
    (hm : ∀ q, ({ h with supportSources := m } : Host).supportSource q = h.supportSource q)
    (hm' : ∀ q, ({ h' with supportSources := m' } : Host).supportSource q = h'.supportSource q) :
    Beside plan off h₀ { h with supportSources := m } { h' with supportSources := m' } :=
  { hb with
    supportSource := fun p hp => by rw [hm, hm', hb.supportSource p hp] }

end Host

namespace Pipeline
open Host Stage
variable {plan : Plan} {off : Setting} {dirty paths : List String} {locale : String}
  {h₀ h h' : Host}

theorem beside_prepare (hb : Beside plan off h₀ h h') (locale : String) :
    (perform (prepare locale) h').1 = (perform (prepare locale) h).1 ∧
      Beside plan off h₀ (perform (prepare locale) h).2 (perform (prepare locale) h').2 := by
  obtain ⟨m, heq, hm⟩ := perform_prepare_eq locale h
  obtain ⟨m', heq', hm'⟩ := perform_prepare_eq locale h'
  rw [heq, heq', hb.context, hb.supportFiles]
  exact ⟨rfl, (hb.remember hm hm').setContext _ _⟩

theorem beside_batchOf (hb : Beside plan off h₀ h h') (hlocale : locale ∈ h₀.options.targets) :
    batchOf h' (modulePaths plan h₀ locale) = batchOf h (modulePaths plan h₀ locale) := by
  unfold Pipeline.batchOf
  rw [hb.options, hb.options', Options.texts_set_ne _ _ (by decide)]
  refine List.map_congr_left fun p hp => ?_
  have hmem : p ∈ loadedPaths h₀ plan.outputDir plan.files :=
    List.mem_append_right _ (List.mem_flatMap.mpr ⟨locale, hlocale, hp⟩)
  unfold Host.fetch
  rw [hb.readSource hmem, hb.readSource']

theorem beside_load (hb : Beside plan off h₀ h h') (hlocale : locale ∈ h₀.options.targets) :
    (perform (load locale (modulePaths plan h₀ locale)) h').1 =
        (perform (load locale (modulePaths plan h₀ locale)) h).1 ∧
      Beside plan off h₀ (perform (load locale (modulePaths plan h₀ locale)) h).2
        (perform (load locale (modulePaths plan h₀ locale)) h').2 := by
  obtain ⟨hresult, hb₁⟩ := beside_prepare hb locale
  unfold load
  rw [perform_bind, perform_bind]
  cases hrun : perform (prepare locale) h with
  | mk r h₁ =>
    cases hrun' : perform (prepare locale) h' with
    | mk r' h₁' =>
      rw [hrun, hrun'] at hresult hb₁
      obtain rfl : r' = r := hresult
      cases r' with
      | error p => exact ⟨rfl, hb₁⟩
      | ok u =>
        have hbatch := beside_batchOf hb₁ hlocale
        unfold Pipeline.batchOf at hbatch
        dsimp only
        rw [perform_bind_ok (perform_fetchBatch _ h₁), perform_bind_ok (perform_fetchBatch _ h₁'),
          perform_onContext, perform_onContext, hbatch, hb₁.context]
        exact ⟨rfl, hb₁.setContext _ _⟩

section Concat

theorem perform_concat (plan : Plan) (paths : List String) (locale : String) (h : Host) :
    perform (concat plan paths locale) h =
      if h.options.flag .concatOutput then concatInto paths (h.joinedFile plan locale) h
      else (.ok (), h) := by
  have hlift (r : Except Problem Unit) (h : Host) :
      perform (concat.liftExcept r) h = (r, h) := by
    cases r <;> rfl
  unfold concat
  rw [perform_bind_ok (perform_host h)]
  by_cases hflag : h.options.flag .concatOutput = true
  · rw [if_neg (by simp [hflag]), if_pos hflag, perform_bind_ok (perform_lift _ h),
      perform_bind_ok (perform_pause _), hlift]
    rfl
  · rw [if_pos (by simpa using hflag), if_neg hflag]
    rfl

/-- How joining files ends, and the host after it. -/
inductive Joins (paths : List String) (target : String) (h : Host) :
    Except Problem Unit × Host → Prop where
  | written {s : Source} {t : FileTree} (hread : readAll h paths = .ok s)
      (hwrite : h.tree.write (Path.tidy target) (Content.ofSource s) = .ok t) :
      Joins paths target h (.ok (), { h with tree := t })
  | unwritten {s : Source} {kind : FileErrorKind} (hread : readAll h paths = .ok s)
      (hwrite : h.tree.write (Path.tidy target) (Content.ofSource s) = .error kind) :
      Joins paths target h (.ok (), h.report [.concatFailed kind])
  | unread {e : FileError} (hread : readAll h paths = .error (.file e)) :
      Joins paths target h (.ok (), h.report [.concatFailed e.kind])
  | undecodable {u : Text.Utf8.Failure} (hread : readAll h paths = .error (.undecodable u)) :
      Joins paths target h (.error (.undecodable u), h)

theorem Joins.ok {target : String} {r : Except Problem Unit} {x : Host}
    (hj : Joins paths target h (r, x))
    (htext : ∀ u, readAll h paths ≠ .error (.undecodable u)) : r = .ok () := by
  cases hj with
  | written | unwritten | unread => rfl
  | undecodable hread => exact absurd hread (htext _)

theorem joins_concatInto (paths : List String) (target : String) (h : Host) :
    Joins paths target h (concatInto paths target h) := by
  unfold concatInto
  cases hread : readAll h paths with
  | error p =>
    obtain ⟨path, -, hpath⟩ := readAll_error hread
    rcases readSource_error hpath with ⟨e, rfl⟩ | ⟨u, rfl⟩
    · exact .unread hread
    · exact .undecodable hread
  | ok s =>
    unfold writeConcat
    dsimp only
    cases hwrite : h.tree.write (Path.tidy target) (Content.ofSource s) with
    | ok t => exact .written hread hwrite
    | error kind => exact .unwritten hread hwrite

theorem beside_joins (hb : Beside plan off h₀ h h') (hclear : h₀.Clear plan)
    (hlocale : locale ∈ h₀.options.targets) {r : Except Problem Unit} {h₁ : Host}
    (hj : Joins paths (h₀.joinedFile plan locale) h (r, h₁)) : Beside plan off h₀ h₁ h' := by
  have hreport (entries : List LogEntry) : Beside plan off h₀ (h.report entries) h' :=
    { hb with }
  cases hj with
  | unwritten | unread => exact hreport _
  | undecodable => exact hb
  | @written s t hread hwrite =>
    have hcontent (p : String) (hp : p ∈ loadedPaths h₀ plan.outputDir plan.files) :
        t.content (Path.tidy p) = h.tree.content (Path.tidy p) := by
      refine FileTree.content_of_write_off hwrite ?_
      rw [hb.cwd]
      exact hclear locale hlocale p hp
    obtain ⟨q, -, rfl, -⟩ := FileTree.write_ok hwrite
    refine { hb with content := fun p hp => (hcontent p hp).trans (hb.content p hp),
                     supportSource := fun p hp => ?_ }
    rw [hb.supportSource p hp]
    unfold Host.supportSource Host.readSource
    rw [hcontent p hp]

end Concat

theorem perform_postCompile (plan : Plan) (locale : String) (h : Host) :
    perform (postCompile plan locale) h =
      match perform (concat plan (modulePaths plan h locale) locale) h with
      | (.ok (), x) =>
        if x.loading then perform (load locale (modulePaths plan h locale)) x else (.ok (), x)
      | (.error p, x) => (.error p, x) := by
  unfold postCompile
  rw [perform_bind_ok (perform_host h)]
  change perform (concat plan (modulePaths plan h locale) locale >>= fun _ => host >>= fun x =>
    if x.loading then load locale (modulePaths plan h locale) else pure ()) h = _
  rw [perform_bind]
  cases perform (concat plan (modulePaths plan h locale) locale) h with
  | mk r x =>
    cases r with
    | error p => rfl
    | ok u =>
      dsimp only
      rw [perform_bind_ok (perform_host x)]
      split <;> rfl

theorem beside_modulePaths (hb : Beside plan off h₀ h h') (locale : String) :
    modulePaths plan h locale = modulePaths plan h₀ locale ∧
      modulePaths plan h' locale = modulePaths plan h₀ locale := by
  unfold modulePaths
  rw [hb.options, hb.options']
  exact ⟨rfl, rfl⟩

theorem beside_postCompile (hb : Beside plan off h₀ h h')
    (hon : h₀.options.flag .concatOutput = true) (hoff : off.isTrue = false)
    (hclear : h₀.Clear plan) (hlocale : locale ∈ h₀.options.targets)
    (htext : ∀ u, readAll h (modulePaths plan h locale) ≠ .error (.undecodable u)) :
    (perform (postCompile plan locale) h').1 = (perform (postCompile plan locale) h).1 ∧
      Beside plan off h₀ (perform (postCompile plan locale) h).2
        (perform (postCompile plan locale) h').2 := by
  obtain ⟨hpaths, hpaths'⟩ := beside_modulePaths hb locale
  have hflag' : h'.options.flag .concatOutput = false := by
    rw [hb.options']
    exact hoff
  have hfile : h.joinedFile plan locale = h₀.joinedFile plan locale := by
    unfold joinedFile
    rw [hb.options]
  have hj := joins_concatInto (modulePaths plan h₀ locale) (h₀.joinedFile plan locale) h
  rw [hpaths] at htext
  rw [perform_postCompile, perform_postCompile, hpaths, hpaths', perform_concat, perform_concat,
    hb.options, if_pos hon, if_neg (by simp [hflag']), hfile]
  cases hrun : concatInto (modulePaths plan h₀ locale) (h₀.joinedFile plan locale) h with
  | mk r x =>
    rw [hrun] at hj
    have hb₁ := beside_joins hb hclear hlocale hj
    have hloading : h'.loading = x.loading := by
      unfold Host.loading
      rw [hb₁.options, hb₁.options', Options.flag_set_ne _ _ (by decide)]
    obtain rfl := hj.ok htext
    dsimp only
    rw [hloading]
    by_cases hload : x.loading = true
    · rw [if_pos hload, if_pos hload]
      exact beside_load hb₁ hlocale
    · rw [if_neg hload, if_neg hload]
      exact ⟨rfl, hb₁⟩

theorem perform_postCompileAll_cons (plan : Plan) (l : String) (r : List String) (h : Host) :
    perform (postCompileAll plan (l :: r)) h =
      match perform (postCompile plan l) h with
      | (.ok _, x) => perform (postCompileAll plan r) x
      | (.error p, x) => (.error p, x) := by
  rw [postCompileAll, perform_bind]
  cases perform (postCompile plan l) h with
  | mk q x => cases q <;> rfl

/-- For one locale after the other both do the same, if the modules of each that is come to are
text. -/
theorem beside_postCompileAll (hb : Beside plan off h₀ h h')
    (hon : h₀.options.flag .concatOutput = true) (hoff : off.isTrue = false)
    (hclear : h₀.Clear plan) {locales : List String} (hlocales : locales ⊆ h₀.options.targets)
    (htext : ∀ before l after x, locales = before ++ l :: after →
      perform (postCompileAll plan before) h = (.ok (), x) →
      ∀ u, readAll x (modulePaths plan x l) ≠ .error (.undecodable u)) :
    (perform (postCompileAll plan locales) h').1 = (perform (postCompileAll plan locales) h).1 ∧
      Beside plan off h₀ (perform (postCompileAll plan locales) h).2
        (perform (postCompileAll plan locales) h').2 := by
  induction locales generalizing h h' with
  | nil => exact ⟨rfl, hb⟩
  | cons l r ih =>
    obtain ⟨hl, hr⟩ := List.cons_subset.mp hlocales
    obtain ⟨hresult, hb₁⟩ :=
      beside_postCompile hb hon hoff hclear hl (htext [] l r h rfl rfl)
    rw [perform_postCompileAll_cons, perform_postCompileAll_cons]
    cases hrun : perform (postCompile plan l) h with
    | mk q h₁ =>
      cases hrun' : perform (postCompile plan l) h' with
      | mk q' h₁' =>
        rw [hrun, hrun'] at hresult hb₁
        obtain rfl : q' = q := hresult
        cases q' with
        | error p => exact ⟨rfl, hb₁⟩
        | ok v =>
          refine ih hb₁ hr fun before m after x heq hbefore => ?_
          subst r
          refine htext (l :: before) m after x rfl ?_
          rw [perform_postCompileAll_cons, hrun]
          exact hbefore

section Compile

theorem perform_compile_notJoining (args : List String) (cwd : String) (off : Setting) (h : Host) :
    compile args cwd (h.notJoining off) =
      ((compile args cwd h).1, (compile args cwd h).2.notJoining off) := by
  unfold compile notJoining
  dsimp only
  cases h.compiler args cwd h.tree with
  | error e => cases e <;> rfl
  | ok r =>
    dsimp only
    split <;> rfl

theorem perform_compileDirty_notJoining (plan : Plan) (dirty : List String) (off : Setting)
    (h : Host) :
    perform (compileDirty plan dirty) (h.notJoining off) =
      ((perform (compileDirty plan dirty) h).1,
        (perform (compileDirty plan dirty) h).2.notJoining off) := by
  unfold compileDirty
  split
  · rfl
  · rw [perform_bind_ok (perform_host h), perform_bind_ok (perform_host (h.notJoining off))]
    unfold notJoining
    dsimp only
    rw [Invocation.arguments_set_joining]
    cases Invocation.arguments h.options plan.outputDir dirty with
    | error e => rfl
    | ok args => exact perform_compile_notJoining args plan.inputDir off h

end Compile

end Pipeline

end TemplateHost
