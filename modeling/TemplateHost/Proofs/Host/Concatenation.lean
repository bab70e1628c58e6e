import TemplateHost.Proofs.Host.Joining

/-!
# Joining as an extra

Joined files are an extra: a pass that cannot read or write one says so in the log and goes on, and
it ends, announces and loads as it would without joining. The one exception is a module that is not
text. It ends the pass at once, with a problem that nobody is told of.
-/
namespace TemplateHost

namespace Host
variable {plan : Plan} {h h' : Host}

theorem Silent.symm (hs : Silent h h') : Silent h' h :=
  ⟨hs.channels.symm, hs.heard.symm, hs.announcements.symm⟩

theorem Silent.hear (hs : Silent h h') (error : Option Problem) (l : PassListener) :
    Silent (h.hear error l).2 (h'.hear error l).2 := by
  obtain ⟨hheard, hlog⟩ := hear_spec h error l
  obtain ⟨hheard', hlog'⟩ := hear_spec h' error l
  refine ⟨?_, ?_, ?_⟩
  · cases l <;> exact hs.channels
  · rw [hheard, hheard', hs.heard]
  · rw [hlog, hlog', hs.announcements]

theorem Silent.emit (hs : Silent h h') (k : ChannelId) (error : Option Problem) :
    (h'.emit k error).1 = (h.emit k error).1 ∧ Silent (h.emit k error).2 (h'.emit k error).2 :=
  emit_congr Silent.channels (fun l hs => hs.hear error l)
    (fun f hs => ⟨congrArg (·.modify k f) hs.channels, hs.heard, hs.announcements⟩) hs

/-- An announcement writes no file and takes nothing back. -/
structure Tells (h h' : Host) : Prop where
  tree : h'.tree = h.tree
  options : h'.options = h.options
  log : h.log <+: h'.log

theorem Tells.refl (h : Host) : Tells h h := ⟨rfl, rfl, List.prefix_rfl⟩

theorem Tells.trans {h'' : Host} (h₁ : Tells h h') (h₂ : Tells h' h'') : Tells h h'' :=
  ⟨h₂.tree.trans h₁.tree, h₂.options.trans h₁.options, h₁.log.trans h₂.log⟩

theorem tells_hear (h : Host) (error : Option Problem) (l : PassListener) :
    Tells h (h.hear error l).2 := by
  cases l with
  | recorder | cancelling => exact ⟨rfl, rfl, List.prefix_rfl⟩
  | logger | failing => exact ⟨rfl, rfl, List.prefix_append _ _⟩

theorem tells_emit (h : Host) (k : ChannelId) (error : Option Problem) :
    Tells h (h.emit k error).2 :=
  emit_of_hear Tells.refl Tells.trans (fun h l => tells_hear h error l)
    (fun _ _ => ⟨rfl, rfl, List.prefix_rfl⟩) h

end Host

namespace Stage
open Host
variable {α : Type}

theorem Works.perform {m : Stage α} (hm : Works m) (h : Host) : Host.Works h (perform m h).2 :=
  Outcome.Within.run (R := Host.Works) Host.Works.trans (hm h)

theorem amid_idle (m : Stage α) (x : Host × Nat) :
    (amid .idle m x).1 = (perform m x.1).1 ∧ (amid .idle m x).2.1 = (perform m x.1).2 :=
  Outcome.amid_idle (ExceptT.run m x.1) x.2

end Stage

namespace Pipeline
open Host Stage
variable {plan : Plan} {dirty locales before after : List String} {off : Setting}
  {locale path : String} {h h₁ x : Host} {c : Content} {p : Problem}

section Ending

theorem silent_eraseOutput (plan : Plan) (h : Host) : Silent h (eraseOutput plan h).2 := by
  obtain ⟨t, log, heq, hlog⟩ := eraseOutput_frame plan h
  have hsilent : Silent h { h with tree := t } := ⟨rfl, rfl, rfl⟩
  rw [heq]
  exact hsilent.trans (silent_report hlog _)

theorem eraseOutput_congr {h' : Host}
    (herase : h'.options.flag .eraseTemporaryFiles = h.options.flag .eraseTemporaryFiles)
    (hwatch : h'.options.flag .allowDynamicRecompile = h.options.flag .allowDynamicRecompile)
    (plan : Plan) : (eraseOutput plan h').1 = (eraseOutput plan h).1 := by
  unfold eraseOutput
  rw [herase, hwatch]
  split
  · rfl
  · split
    · rfl
    · cases h.tree.removeTree plan.outputDir <;> cases h'.tree.removeTree plan.outputDir <;> rfl

theorem silent_ending {h' : Host} (hs : Silent h h')
    (herase : h'.options.flag .eraseTemporaryFiles = h.options.flag .eraseTemporaryFiles)
    (hwatch : h'.options.flag .allowDynamicRecompile = h.options.flag .allowDynamicRecompile)
    (plan : Plan) (r : Except Problem Unit) :
    (ending plan r h').1 = (ending plan r h).1 ∧
      Silent (ending plan r h).2 (ending plan r h').2 := by
  unfold ending
  cases verdict r with
  | error p => exact ⟨rfl, hs⟩
  | ok error =>
    obtain ⟨hresult, hafter⟩ := hs.emit plan.channel error
    have hopt := (tells_emit h plan.channel error).options
    have hopt' := (tells_emit h' plan.channel error).options
    dsimp only
    unfold conclude
    generalize h.emit plan.channel error = emitted at hresult hafter hopt
    generalize h'.emit plan.channel error = emitted' at hresult hafter hopt'
    obtain ⟨q, t⟩ := emitted
    obtain ⟨q', t'⟩ := emitted'
    dsimp only at hresult hopt hopt'
    subst hresult
    cases q' with
    | error p => exact ⟨rfl, hafter⟩
    | ok =>
      cases error with
      | some p => exact ⟨rfl, hafter⟩
      | none =>
        rw [← hopt, ← hopt'] at herase hwatch
        exact ⟨congrArg (Except.map fun _ => none) (eraseOutput_congr herase hwatch plan),
          (silent_eraseOutput plan t).symm.trans (hafter.trans (silent_eraseOutput plan t'))⟩

theorem contexts_ending (plan : Plan) (r : Except Problem Unit) (h : Host) :
    (ending plan r h).2.contexts = h.contexts := by
  unfold ending
  cases verdict r with
  | error p => rfl
  | ok error => exact contexts_conclude h plan error

theorem log_ending (plan : Plan) (r : Except Problem Unit) (h : Host) :
    h.log <+: (ending plan r h).2.log := by
  have herase (h : Host) : h.log <+: (eraseOutput plan h).2.log := by
    obtain ⟨t, log, heq, -⟩ := eraseOutput_frame plan h
    rw [heq]
    exact List.prefix_append _ _
  unfold ending
  cases verdict r with
  | error p => exact List.prefix_rfl
  | ok error =>
    exact conclude_of_emit (R := fun h h' => h.log <+: h'.log) List.IsPrefix.trans
      (tells_emit h _ _).log herase

def Kept (o : Options) : Prop :=
  o.flag .eraseTemporaryFiles = false ∨ o.flag .allowDynamicRecompile = true

theorem eraseOutput_of_kept (hkept : Kept h.options) (plan : Plan) :
    eraseOutput plan h = (.ok (), h) := by
  rcases eraseOutput_spec plan h with ⟨-, heq⟩ | ⟨⟨herase, hwatch⟩, -⟩
  · exact heq
  · rcases hkept with hkept | hkept
    · rw [herase] at hkept
      cases hkept
    · rw [hwatch] at hkept
      cases hkept

theorem tree_ending (hkept : Kept h.options) (plan : Plan) (r : Except Problem Unit) :
    (ending plan r h).2.tree = h.tree := by
  unfold ending
  cases verdict r with
  | error p => rfl
  | ok error =>
    refine (conclude_of_emit (R := fun h h' => Kept h.options → h'.tree = h.tree ∧ Kept h'.options)
      ?_ ?_ ?_ hkept).1
    · exact fun h₁ h₂ hkept => ⟨(h₂ (h₁ hkept).2).1.trans (h₁ hkept).1, (h₂ (h₁ hkept).2).2⟩
    · obtain ⟨htree, hopt, -⟩ := tells_emit h plan.channel error
      exact fun hkept => ⟨htree, hopt.symm ▸ hkept⟩
    · intro t hkept
      rw [eraseOutput_of_kept hkept]
      exact ⟨rfl, hkept⟩

theorem perform_pass_eq (plan : Plan) (dirty : List String) (h : Host) :
    perform (pass plan dirty) h =
      ending plan (perform (stages plan dirty) h).1 (perform (stages plan dirty) h).2 := by
  change (ExceptT.run (pass plan dirty) h).run = _
  rw [run_pass, Outcome.run_bind]
  rfl

end Ending

/-- What joining leaves where the modules are text, and where one of them cannot be read. -/
theorem Joins.leaves {paths : List String} {target : String} {y : Except Problem Unit × Host}
    (hj : Joins paths target h y) :
    (∀ s, readAll h paths = .ok s →
      (∃ kind, h.tree.write (Path.tidy target) (Content.ofSource s) = .error kind ∧
        y.2.log = h.log ++ [.concatFailed kind]) ∨
      y.2.tree.content (Path.tidy target) = .ok (Content.ofSource s)) ∧
    ∀ e, readAll h paths = .error (.file e) → y.2.log = h.log ++ [.concatFailed e.kind] := by
  cases hj with
  | written hread hwrite =>
    rw [hread]
    refine ⟨fun s hs => ?_, nofun⟩
    cases hs
    exact .inr (FileTree.content_of_write_self hwrite)
  | unwritten hread hwrite =>
    rw [hread]
    refine ⟨fun s hs => ?_, nofun⟩
    cases hs
    exact .inl ⟨_, hwrite, rfl⟩
  | unread hread =>
    rw [hread]
    refine ⟨nofun, fun e he => ?_⟩
    cases he
    rfl
  | undecodable hread =>
    rw [hread]
    exact ⟨nofun, nofun⟩

section Later

theorem tree_load (locale : String) (paths : List String) (h : Host) :
    (perform (load locale paths) h).2.tree = h.tree := by
  obtain ⟨m, hprepare, -⟩ := perform_prepare_eq locale h
  unfold load
  rw [perform_bind, hprepare]
  cases ((h.context (some locale)).ready h.supportFiles).1 with
  | error e => rfl
  | ok u =>
    change (perform (fetchBatch paths >>= _) _).2.tree = _
    rw [perform_bind_ok (perform_fetchBatch paths _), perform_onContext]
    rfl

theorem postCompile_after_concat (plan : Plan) (locale : String) (h : Host) :
    Host.Works (perform (concat plan (modulePaths plan h locale) locale) h).2
        (perform (postCompile plan locale) h).2 ∧
      (perform (postCompile plan locale) h).2.tree =
        (perform (concat plan (modulePaths plan h locale) locale) h).2.tree := by
  rw [perform_postCompile]
  cases perform (concat plan (modulePaths plan h locale) locale) h with
  | mk r y =>
    cases r with
    | error p => exact ⟨.refl y, rfl⟩
    | ok u =>
      dsimp only
      split
      · exact ⟨(works_load locale _).perform y, tree_load locale _ y⟩
      · exact ⟨.refl y, rfl⟩

/-- Joining leaves the tree, or it writes the joined file. -/
theorem tree_concat (plan : Plan) (paths : List String) (locale : String) (h : Host) :
    (perform (concat plan paths locale) h).2.tree = h.tree ∨
      ∃ c, h.tree.write (Path.tidy (h.joinedFile plan locale)) c =
        .ok (perform (concat plan paths locale) h).2.tree := by
  rw [perform_concat]
  split
  · obtain ⟨t, log, heq, hwrite⟩ := concatInto_eq paths (h.joinedFile plan locale) h
    rw [heq]
    exact hwrite
  · exact Or.inl rfl

theorem cwd_concat (plan : Plan) (paths : List String) (locale : String) (h : Host) :
    (perform (concat plan paths locale) h).2.tree.cwd = h.tree.cwd := by
  rcases tree_concat plan paths locale h with hsame | ⟨c, hwrite⟩
  · rw [hsame]
  · obtain ⟨q, -, heq, -⟩ := FileTree.write_ok hwrite
    rw [heq]
    rfl

theorem content_concat (hapart : h.readPlace path ≠ h.readPlace (h.joinedFile plan locale))
    (hc : h.tree.content (Path.tidy path) = .ok c) (paths : List String) :
    (perform (concat plan paths locale) h).2.tree.content (Path.tidy path) = .ok c := by
  rcases tree_concat plan paths locale h with hsame | ⟨d, hwrite⟩
  · rwa [hsame]
  · exact FileTree.content_of_write_ne hwrite hapart hc

theorem apart_postCompile (m : String)
    (hapart : ∀ l ∈ locales, h.readPlace path ≠ h.readPlace (h.joinedFile plan l)) :
    ∀ l ∈ locales, (perform (postCompile plan m) h).2.readPlace path ≠
      (perform (postCompile plan m) h).2.readPlace
        ((perform (postCompile plan m) h).2.joinedFile plan l) := by
  obtain ⟨-, htree⟩ := postCompile_after_concat plan m h
  have hopt := ((works_postCompile plan m).perform h).options
  intro l hl
  unfold joinedFile readPlace
  rw [htree, cwd_concat, hopt]
  exact hapart l hl

theorem content_postCompileAll
    (hapart : ∀ l ∈ locales, h.readPlace path ≠ h.readPlace (h.joinedFile plan l))
    (hc : h.tree.content (Path.tidy path) = .ok c) :
    (perform (postCompileAll plan locales) h).2.tree.content (Path.tidy path) = .ok c := by
  induction locales generalizing h with
  | nil => exact hc
  | cons m r ih =>
    obtain ⟨hm, hr⟩ := List.forall_mem_cons.mp hapart
    obtain ⟨-, htree⟩ := postCompile_after_concat plan m h
    have hkeep := content_concat hm hc (modulePaths plan h m)
    have hapart' := apart_postCompile m hr
    rw [← htree] at hkeep
    rw [perform_postCompileAll_cons]
    cases hrun : perform (postCompile plan m) h with
    | mk q y =>
      rw [hrun] at hkeep hapart'
      cases q with
      | error p => exact hkeep
      | ok u => exact ih hapart' hkeep

theorem postCompileAll_after_concat (plan : Plan) (locale : String) (after : List String)
    (h : Host) :
    (perform (concat plan (modulePaths plan h locale) locale) h).2.log <+:
        (perform (postCompileAll plan (locale :: after)) h).2.log ∧
      ∀ path c, (∀ l ∈ after, h.readPlace path ≠ h.readPlace (h.joinedFile plan l)) →
        (perform (concat plan (modulePaths plan h locale) locale) h).2.tree.content
          (Path.tidy path) = .ok c →
        (perform (postCompileAll plan (locale :: after)) h).2.tree.content (Path.tidy path) =
          .ok c := by
  obtain ⟨hworks, htree⟩ := postCompile_after_concat plan locale h
  rw [perform_postCompileAll_cons, ← htree]
  cases hrun : perform (postCompile plan locale) h with
  | mk q y =>
    rw [hrun] at hworks
    cases q with
    | error p => exact ⟨hworks.log_grows, fun _ _ _ hc => hc⟩
    | ok u =>
      have hafter := (works_postCompileAll plan after).perform y
      refine ⟨(hworks.trans hafter).log_grows, fun path c hne hc => ?_⟩
      have hapart := apart_postCompile locale hne
      rw [hrun] at hapart
      exact content_postCompileAll hapart hc

end Later

/-- A pass has compiled, done the locales before, and comes to a locale. -/
def Reaches (plan : Plan) (dirty : List String) (h : Host) (locale : String) (after : List String)
    (x : Host) : Prop :=
  ∃ h₁ before, perform (compileDirty plan dirty) h = (.ok (), h₁) ∧
    h₁.options.targets = before ++ locale :: after ∧
    perform (postCompileAll plan before) h₁ = (.ok (), x)

/-- A pass comes to a locale of whose modules the first that cannot be read is not text. -/
def Garbled (plan : Plan) (dirty : List String) (h : Host) (u : Text.Utf8.Failure) : Prop :=
  ∃ locale after x, Reaches plan dirty h locale after x ∧
    readAll x (modulePaths plan x locale) = .error (.undecodable u)

/-- Two passes return or raise the same, have announced the same, and leave the same contexts. -/
structure SameOutcome (x y : Except Problem (Option Problem) × Host) : Prop where
  result : y.1 = x.1
  channels : y.2.channels = x.2.channels
  heard : y.2.heard = x.2.heard
  announcements : y.2.announcements = x.2.announcements
  contexts : y.2.contexts = x.2.contexts

theorem perform_stages (hcompile : perform (compileDirty plan dirty) h = (.ok (), h₁)) :
    perform (stages plan dirty) h = perform (postCompileAll plan h₁.options.targets) h₁ := by
  unfold stages
  rw [perform_bind_ok hcompile]
  rfl

theorem perform_postCompileAll_append
    (hbefore : perform (postCompileAll plan before) h = (.ok (), x)) (after : List String) :
    perform (postCompileAll plan (before ++ after)) h = perform (postCompileAll plan after) x := by
  induction before generalizing h with
  | nil =>
    obtain rfl : h = x := congrArg Prod.snd hbefore
    rfl
  | cons l r ih =>
    rw [perform_postCompileAll_cons] at hbefore
    rw [List.cons_append, perform_postCompileAll_cons]
    cases hrun : perform (postCompile plan l) h with
    | mk q y =>
      rw [hrun] at hbefore
      cases q with
      | error p => cases hbefore
      | ok u => exact ih hbefore

namespace Reaches

theorem perform_stages (hr : Reaches plan dirty h locale after x) :
    perform (stages plan dirty) h = perform (postCompileAll plan (locale :: after)) x := by
  obtain ⟨h₁, before, hcompile, htargets, hbefore⟩ := hr
  rw [Pipeline.perform_stages hcompile, htargets, perform_postCompileAll_append hbefore]

theorem works (hr : Reaches plan dirty h locale after x) : Host.Works h x := by
  obtain ⟨h₁, before, hcompile, -, hbefore⟩ := hr
  have hfirst := (works_compileDirty plan dirty).perform h
  have hrest := (works_postCompileAll plan before).perform h₁
  rw [hcompile] at hfirst
  rw [hbefore] at hrest
  exact hfirst.trans hrest

theorem perform_stages_garbled (hr : Reaches plan dirty h locale after x)
    (hon : h.options.flag .concatOutput = true) {u : Text.Utf8.Failure}
    (hread : readAll x (modulePaths plan x locale) = .error (.undecodable u)) :
    perform (stages plan dirty) h = (.error (.undecodable u), x) := by
  have hjoin : concatInto (modulePaths plan x locale) (x.joinedFile plan locale) x =
      (.error (.undecodable u), x) := by
    unfold concatInto
    rw [hread]
  rw [hr.perform_stages, perform_postCompileAll_cons, perform_postCompile, perform_concat,
    hr.works.options, if_pos hon, hjoin]

theorem pass_after_concat (hr : Reaches plan dirty h locale after x) :
    (perform (concat plan (modulePaths plan x locale) locale) x).2.log <+:
        (perform (pass plan dirty) h).2.log ∧
      ∀ path c, Kept h.options →
        (∀ l ∈ after, x.readPlace path ≠ x.readPlace (x.joinedFile plan l)) →
        (perform (concat plan (modulePaths plan x locale) locale) x).2.tree.content
          (Path.tidy path) = .ok c →
        (perform (pass plan dirty) h).2.tree.content (Path.tidy path) = .ok c := by
  obtain ⟨hlog, hcontent⟩ := postCompileAll_after_concat plan locale after x
  have hopt := ((works_stages plan dirty).perform h).options
  rw [← hr.perform_stages] at hlog hcontent
  rw [perform_pass_eq]
  refine ⟨hlog.trans (log_ending _ _ _), fun path c hkept hapart hc => ?_⟩
  rw [← hopt] at hkept
  rw [tree_ending hkept]
  exact hcontent path c hapart hc

end Reaches

/-- Without joining, a pass that has compiled announces whatever problem it has. -/
theorem pass_concludes (hoff : h.options.flag .concatOutput = false)
    (hcompile : perform (compileDirty plan dirty) h = (.ok (), h₁)) :
    ∃ error x, Silent h x ∧ perform (pass plan dirty) h = conclude plan error x := by
  have hdec : Decodes .idle plan dirty h := by
    rintro locale x ⟨y, before, after, hcompile, -, hbefore⟩ hflag
    have hy := (amid_idle (compileDirty plan dirty) (h, 0)).2
    have hx := (amid_idle (postCompileAll plan before) y).2
    rw [hcompile] at hy
    rw [hbefore] at hx
    have hfirst := ((works_compileDirty plan dirty).perform h).options
    have hrest := ((works_postCompileAll plan before).perform y.1).options
    rw [← hy] at hfirst
    rw [← hx, hfirst] at hrest
    rw [hrest, hoff] at hflag
    cases hflag
  have hsilent := ((works_stages plan dirty).perform h).silent
  rw [perform_pass_eq]
  cases hrun : (perform (stages plan dirty) h).1 with
  | ok u => exact ⟨none, _, hsilent, rfl⟩
  | error p =>
    have hfail := (amid_idle (stages plan dirty) (h, 0)).1.trans hrun
    rcases (stages_error_of_decodes hdec).mp hfail with hcompiler | ⟨_, _, _, -, -, -, hload⟩
    · have hnone := (amid_idle (compileDirty plan dirty) (h, 0)).1
      rw [hcompile] at hnone
      unfold CompilationFails at hcompiler
      rw [hnone] at hcompiler
      cases hcompiler
    · obtain ⟨_, _, _, rfl⟩ := load_error hload
      exact ⟨some _, _, hsilent, rfl⟩

theorem sameOutcome_pass {h' : Host} (hs : Silent h h')
    (herase : h'.options.flag .eraseTemporaryFiles = h.options.flag .eraseTemporaryFiles)
    (hwatch : h'.options.flag .allowDynamicRecompile = h.options.flag .allowDynamicRecompile)
    (hresult : (perform (stages plan dirty) h').1 = (perform (stages plan dirty) h).1)
    (hcontexts : (perform (stages plan dirty) h').2.contexts =
      (perform (stages plan dirty) h).2.contexts) :
    SameOutcome (perform (pass plan dirty) h) (perform (pass plan dirty) h') := by
  have hworks := (works_stages plan dirty).perform h
  have hworks' := (works_stages plan dirty).perform h'
  rw [← hworks.options, ← hworks'.options] at herase hwatch
  obtain ⟨hended, hend⟩ := silent_ending ((hworks.silent.symm.trans hs).trans hworks'.silent) herase
    hwatch plan (perform (stages plan dirty) h).1
  rw [perform_pass_eq, perform_pass_eq, hresult]
  refine ⟨hended, hend.channels, hend.heard, hend.announcements, ?_⟩
  rw [contexts_ending, contexts_ending, hcontexts]

/-- With and without joining, stages end alike where all modules are text. -/
theorem stages_notJoining (hoff : off.isTrue = false) (hon : h.options.flag .concatOutput = true)
    (hclear : ∀ h₁, perform (compileDirty plan dirty) h = (.ok (), h₁) → h₁.Clear plan)
    (htext : ∀ u, ¬ Garbled plan dirty h u) :
    (perform (stages plan dirty) (h.notJoining off)).1 = (perform (stages plan dirty) h).1 ∧
      (perform (stages plan dirty) (h.notJoining off)).2.contexts =
        (perform (stages plan dirty) h).2.contexts := by
  have hcompile' := perform_compileDirty_notJoining plan dirty off h
  have hopt := ((works_compileDirty plan dirty).perform h).options
  cases hcompile : perform (compileDirty plan dirty) h with
  | mk r h₁ =>
    rw [hcompile] at hcompile' hopt
    cases r with
    | error p =>
      unfold stages
      rw [perform_bind, perform_bind, hcompile, hcompile']
      exact ⟨rfl, rfl⟩
    | ok u =>
      have hon₁ : h₁.options.flag .concatOutput = true := by
        rw [hopt]
        exact hon
      rw [perform_stages hcompile, perform_stages hcompile']
      obtain ⟨hresult, hbeside⟩ := beside_postCompileAll (.refl plan off h₁) hon₁ hoff
        (hclear h₁ hcompile) (List.Subset.refl _) fun before l after x htargets hbefore u hread =>
          htext u ⟨l, after, x, ⟨h₁, before, hcompile, htargets, hbefore⟩, hread⟩
      exact ⟨hresult, hbeside.contexts⟩

section Sample

/-- A module that the compiler has not made, and that is not text. -/
def strangeTree : FileTree where
  nodes := ⟨[(["out"], .directory), (["out", "a.soy.py"], .file [.bytes [0xff]])] ++
    Session.sampleRuntime⟩
  cwd := []

def strangePlan : Plan := ⟨"/", "/out", ["a.soy"], 0⟩

def strangeHost : Host :=
  let h := Host.new Session.sampleSurroundings strangeTree ⟨2024, 1, 2, 3, 4, 5, 0⟩ (.ofInt 0)
  { h with
    options := h.options.set .concatOutput (.flag true)
    channels := [Channel.empty.on .recorder] }

theorem decode_strange : Text.Utf8.decode [0xff] = .error ⟨.startByte, 0, [0xff]⟩ := by
  have hitem : Text.Utf8.item 0xff [] = .defect .startByte 1 := rfl
  have hitems : Text.Utf8.items [0xff] = [.defect .startByte 1] := by
    simp [Text.Utf8.items, hitem]
  unfold Text.Utf8.decode
  rw [hitems]
  rfl

theorem readAll_strangeHost :
    readAll strangeHost (modulePaths strangePlan strangeHost "default") =
      .error (.undecodable ⟨.startByte, 0, [0xff]⟩) := by
  have hpaths : modulePaths strangePlan strangeHost "default" = ["/out/a.soy.py"] := by decide
  have hcontent : strangeHost.tree.content (Path.tidy "/out/a.soy.py") =
      .ok [.bytes [0xff]] := rfl
  have hread : strangeHost.readSource "/out/a.soy.py" =
      .error (.undecodable ⟨.startByte, 0, [0xff]⟩) := by
    unfold readSource
    rw [hcontent]
    simp only [Content.read, Content.readPassage, List.mapM_cons, decode_strange]
    rfl
  unfold readAll
  rw [hpaths, List.mapM_cons, hread]
  rfl

theorem clear_strangeHost : strangeHost.Clear strangePlan := by
  unfold Clear
  decide +kernel

end Sample

end Pipeline

end TemplateHost
