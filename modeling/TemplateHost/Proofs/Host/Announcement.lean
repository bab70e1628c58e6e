import TemplateHost.Proofs.Files.Listing
import TemplateHost.Proofs.Host.Call
import TemplateHost.Proofs.Host.Problems
import TemplateHost.Proofs.Host.Reuse
import TemplateHost.Proofs.Host.Works

/-!
# What passes announce

Every pass announces one outcome, in its last stride: the problem of the first stage that failed, or
that none did. A compile call raises the problem that its pass announced; a recompile pass returns
it. There are two exceptions: what a listener raises that is no error ends the announcement and
takes the place of the outcome, and a fault of the system, which does not take the name of what it
is asked for, is raised without being announced.
-/
namespace TemplateHost

namespace Pipeline
open Host Stage
variable {others : Others Host} {plan : Plan} {dirty : List String} {h h₀ : Host}

/-- What a pass makes of the end of its stages. -/
def verdict : Except Problem Unit → Except Problem (Option Problem)
  | .ok () => .ok none
  | .error p => if p.isReported then .ok (some p) else .error p

/-- A problem that is not for announcing leaves the host as it is. -/
def ending (plan : Plan) (r : Except Problem Unit) (h : Host) :
    Except Problem (Option Problem) × Host :=
  match verdict r with
  | .ok error => conclude plan error h
  | .error p => (.error p, h)

theorem run_pass (plan : Plan) (dirty : List String) (h : Host) :
    ExceptT.run (pass plan dirty) h = (ExceptT.run (stages plan dirty) h).bind fun r t =>
      .done (ending plan r t).1 (ending plan r t).2 := by
  unfold pass
  rw [run_lift_bind]
  refine congrArg _ (funext₂ fun r t => ?_)
  cases r with
  | ok u => rfl
  | error p =>
    unfold ending verdict
    by_cases hp : p.isReported = true
    · simp only [hp]
      rfl
    · simp only [hp]
      rfl

/-- Strides that end with an announcement, whose result they have, and are otherwise within a
relation. -/
def Announces {ρ : Type} (R : Host → Host → Prop) (announce : Host → ρ × Host) (result : ρ)
    (strides : List (Host × Host)) : Prop :=
  ∃ earlier u x, result = (announce x).1 ∧ strides = earlier ++ [(u, (announce x).2)] ∧
    (∀ q ∈ earlier, R q.1 q.2) ∧ R u x

theorem Announces.map {ρ ρ' : Type} {R : Host → Host → Prop} {announce : Host → ρ × Host}
    {result : ρ} {strides : List (Host × Host)} (g : ρ → ρ')
    (hannounces : Announces R announce result strides) :
    Announces R (fun h => (announce h).map g id) (g result) strides := by
  obtain ⟨earlier, u, x, hresult, hstrides, hwithin⟩ := hannounces
  exact ⟨earlier, u, x, congrArg g hresult, hstrides, hwithin⟩

/-- How something ends that can fail: it announces its outcome, unless it fails by a fault, which it
raises without announcing anything. -/
inductive Reports {ρ : Type} (R : Host → Host → Prop) (announce : Option Problem → Host → ρ × Host)
    (raise : Problem → ρ) (fails : Problem → Prop) (result : ρ) (strides : List (Host × Host)) :
    Prop where
  | announced {error : Option Problem} (herror : ∀ p, error = some p ↔ fails p)
    (hreported : ∀ p, fails p → p.isReported = true)
    (hannounces : Announces R (announce error) result strides)
  | escaped {f : Fault} (hfails : ∀ p, p = .fault f ↔ fails p) (hresult : result = raise (.fault f))
    (hstrides : ∀ q ∈ strides, R q.1 q.2)

theorem Reports.map {ρ ρ' : Type} {R : Host → Host → Prop}
    {announce : Option Problem → Host → ρ × Host} {raise : Problem → ρ} {fails : Problem → Prop}
    {result : ρ} {strides : List (Host × Host)} (g : ρ → ρ')
    (hreports : Reports R announce raise fails result strides) :
    Reports R (fun error h => (announce error h).map g id) (fun p => g (raise p)) fails (g result)
      strides := by
  cases hreports with
  | announced herror hreported hannounces =>
    exact .announced herror hreported (hannounces.map g)
  | escaped hfails hresult hstrides => exact .escaped hfails (congrArg g hresult) hstrides

/-- A pass ends as its stages tell. Its first stride may have begun before it. -/
theorem pass_ends {R : Host → Host → Prop} (others : Others Host)
    (hwithin : (ExceptT.run (stages plan dirty) h).Within R h₀) :
    Announces R (ending plan (amid others (stages plan dirty) (h, 0)).1)
      (amid others (pass plan dirty) (h, 0)).1
      ((ExceptT.run (pass plan dirty) h).strides others h₀ 0) := by
  obtain ⟨earlier, u, hstrides, hearlier, hlast⟩ :=
    hwithin.strides_bind_done (fun r t => (ending plan r t).1) (fun r t => (ending plan r t).2)
      others 0
  rw [← run_pass] at hstrides
  refine ⟨earlier, u, _, ?_, hstrides, hearlier, hlast⟩
  unfold amid
  rw [run_pass, Outcome.amid_bind]
  rfl

theorem pass_reports {R : Host → Host → Prop} (hdec : Decodes others plan dirty h)
    (hwithin : (ExceptT.run (stages plan dirty) h).Within R h₀) :
    Reports R (conclude plan) .error (Fails others plan dirty h)
      (amid others (pass plan dirty) (h, 0)).1
      ((ExceptT.run (pass plan dirty) h).strides others h₀ 0) := by
  have hends := pass_ends others hwithin
  have hfail (p : Problem) := stages_error_of_decodes (p := p) hdec
  unfold ending at hends
  cases hstages : (amid others (stages plan dirty) (h, 0)).1 with
  | ok v =>
    rw [hstages] at hends hfail
    have hnone (p : Problem) : none = some p ↔ Fails others plan dirty h p := by
      rw [← hfail p]
      simp
    exact .announced hnone (fun p hp => absurd ((hnone p).mpr hp).symm (Option.some_ne_none p))
      hends
  | error q =>
    rw [hstages] at hends hfail
    have honly (p : Problem) : q = p ↔ Fails others plan dirty h p := by
      rw [← hfail p]
      exact ⟨congrArg _, Except.error.inj⟩
    rcases ((honly q).mp rfl).cases with hreported | ⟨f, rfl⟩
    · have hverdict : verdict (.error q) = .ok (some q) := if_pos hreported
      rw [hverdict] at hends
      exact .announced (fun p => Option.some_inj.trans (honly p))
        (fun p hp => (honly p).mpr hp ▸ hreported) hends
    · obtain ⟨earlier, u, x, hresult, hstrides, hearlier, hlast⟩ := hends
      refine .escaped (fun p => eq_comm.trans (honly p)) hresult ?_
      rw [hstrides]
      exact List.forall_mem_append.mpr ⟨hearlier, List.forall_mem_singleton.mpr hlast⟩

/-- Erasing is no announcement, and there is none where sources are watched. It fails only at a name
that the system does not take. -/
theorem eraseOutput_spec (plan : Plan) (h : Host) :
    (h.options.flag .eraseTemporaryFiles = false ∨ h.options.flag .allowDynamicRecompile = true) ∧
      eraseOutput plan h = (.ok (), h) ∨
    (h.options.flag .eraseTemporaryFiles = true ∧ h.options.flag .allowDynamicRecompile = false) ∧
      (Path.hasNull plan.outputDir = true ∧ eraseOutput plan h = (.error (.fault .nullInPath), h) ∨
        Path.hasNull plan.outputDir = false ∧
          ((∃ t, h.tree.removeTree plan.outputDir = .ok t ∧
              eraseOutput plan h = (.ok (), { h with tree := t })) ∨
            ∃ kind, h.tree.removeTree plan.outputDir = .error kind ∧
              eraseOutput plan h = (.ok (), h.report [.eraseFailed plan.outputDir kind]))) := by
  unfold eraseOutput
  split
  · next hoff => exact Or.inl ⟨by simpa using hoff, rfl⟩
  · next hon =>
    refine Or.inr ⟨by simpa using hon, ?_⟩
    split
    · next hnull => exact Or.inl ⟨hnull, rfl⟩
    · next hnull =>
      refine Or.inr ⟨by simpa using hnull, ?_⟩
      cases h.tree.removeTree plan.outputDir with
      | ok t => exact Or.inl ⟨t, rfl, rfl⟩
      | error kind => exact Or.inr ⟨kind, rfl, rfl⟩

theorem eraseOutput_frame (plan : Plan) (h : Host) :
    ∃ t log, (eraseOutput plan h).2 = ({ h with tree := t } : Host).report log ∧
      ∀ e ∈ log, e.isAnnouncement = false := by
  have hsame (r : Except Problem Unit) (heq : eraseOutput plan h = (r, h)) :
      ∃ t log, (eraseOutput plan h).2 = ({ h with tree := t } : Host).report log ∧
        ∀ e ∈ log, e.isAnnouncement = false :=
    ⟨h.tree, [], by simp [heq, report], List.forall_mem_nil _⟩
  rcases eraseOutput_spec plan h with
    ⟨-, heq⟩ | ⟨-, ⟨-, heq⟩ | ⟨-, ⟨t, -, heq⟩ | ⟨kind, -, heq⟩⟩⟩
  · exact hsame _ heq
  · exact hsame _ heq
  · exact ⟨t, [], by simp [heq, report], List.forall_mem_nil _⟩
  · exact ⟨h.tree, _, by rw [heq], List.forall_mem_singleton.mpr rfl⟩

end Pipeline

namespace PassListener

def announcement (error : Option Problem) : PassListener → Option LogEntry
  | .logger => some (match error with
    | some p => .passFailed (LogEntry.problemText p)
    | none => .passDone)
  | .recorder | .cancelling => none
  | .failing => some .listenerFailed

/-- The listeners that an announcement reaches: none after the first that cancels. -/
def audience : List PassListener → List PassListener
  | [] => []
  | l :: r => if l = .cancelling then [l] else l :: audience r

end PassListener

namespace Host
open PassListener

theorem hear_spec (h : Host) (error : Option Problem) (l : PassListener) :
    (h.hear error l).2.heard = h.heard ++ (if l = .logger then [] else [error]) ∧
    (h.hear error l).2.announcements = h.announcements ++ (l.announcement error).toList := by
  cases l with
  | logger =>
    refine ⟨(List.append_nil _).symm, ?_⟩
    cases error with
    | none => exact List.filter_append ..
    | some p => exact List.filter_append ..
  | recorder | cancelling => exact ⟨rfl, (List.append_nil _).symm⟩
  | failing => exact ⟨rfl, List.filter_append ..⟩

/-- Every listener of the channel is told once, in order, even if one before it fails, up to one
that cancels. -/
theorem emit_spec {h : Host} {k : ChannelId} {c : Channel PassListener Problem}
    (hc : h.channels[k]? = some c) (error : Option Problem) :
    (h.emit k error).1 = (if .cancelling ∈ c.listeners then .error .cancelled else .ok ()) ∧
    (h.emit k error).2.heard =
      h.heard ++ ((audience c.listeners).filter (· ≠ .logger)).map (fun _ => error) ∧
    (h.emit k error).2.announcements =
      h.announcements ++ (audience c.listeners).filterMap (announcement error) := by
  have htell (ls : List PassListener) (h : Host) :
      (tell error ls h).1 = (if .cancelling ∈ ls then .error .cancelled else .ok ()) ∧
        (tell error ls h).2.heard =
          h.heard ++ ((audience ls).filter (· ≠ .logger)).map (fun _ => error) ∧
        (tell error ls h).2.announcements =
          h.announcements ++ (audience ls).filterMap (announcement error) := by
    induction ls generalizing h with
    | nil => exact ⟨rfl, (List.append_nil _).symm, (List.append_nil _).symm⟩
    | cons l r ih =>
      obtain ⟨hresult, hheard, hlog⟩ := ih (h.hear error l).2
      obtain ⟨hheard₁, hlog₁⟩ := hear_spec h error l
      rw [tell_cons, audience]
      by_cases hl : l = .cancelling
      · subst hl
        exact ⟨by simp [hear], hheard₁, hlog₁⟩
      · rw [if_neg hl, if_neg hl, hresult, hheard, hlog, hheard₁, hlog₁, List.append_assoc,
          List.append_assoc]
        refine ⟨by simp [Ne.symm hl], ?_⟩
        cases l <;> exact ⟨rfl, rfl⟩
  have htold := htell c.listeners { h with channels := h.channels.modify k Channel.beginEmit }
  unfold emit
  rw [hc]
  dsimp only
  generalize tell error c.listeners _ = told at htold
  obtain ⟨q, t⟩ := told
  cases q <;> exact htold

end Host

namespace Pipeline
open Host Stage

theorem eraseOutput_eq_ok (plan : Plan) {h : Host} : (eraseOutput plan h).1 = .ok () ↔
    (h.options.flag .eraseTemporaryFiles = true → h.options.flag .allowDynamicRecompile = false →
      Path.hasNull plan.outputDir = false) := by
  rcases eraseOutput_spec plan h with
    ⟨hoff | hdynamic, heq⟩ | ⟨⟨hon, hstatic⟩, ⟨hnull, heq⟩ | ⟨hnull, ⟨t, -, heq⟩ | ⟨kind, -, heq⟩⟩⟩
  · simp [heq, hoff]
  · simp [heq, hdynamic]
  · simp [heq, hon, hstatic, hnull]
  · simp [heq, hnull]
  · simp [heq, hnull]

theorem emit_eq_ok {h : Host} {k : ChannelId} (error : Option Problem) :
    (h.emit k error).1 = .ok () ↔
      ∀ c, h.channels[k]? = some c → .cancelling ∉ c.listeners := by
  cases hc : h.channels[k]? with
  | none =>
    have hemit : h.emit k error = (.ok (), h) := by
      unfold emit
      rw [hc]
    simp [hemit]
  | some c => simp [(emit_spec hc error).1]

/-- What is announced is also the result, unless a listener cancels or the system does not take the
name of what is to be erased. -/
theorem conclude_eq_ok {plan : Plan} {h : Host} {error : Option Problem} :
    (conclude plan error h).1 = .ok error ↔
      (∀ c, h.channels[plan.channel]? = some c → .cancelling ∉ c.listeners) ∧
      (error = none → h.options.flag .eraseTemporaryFiles = true →
        h.options.flag .allowDynamicRecompile = false → Path.hasNull plan.outputDir = false) := by
  have hoptions : (h.emit plan.channel error).2.options = h.options :=
    emit_of_hear (R := fun h h' => h'.options = h.options) (fun _ => rfl)
      (fun h₁ h₂ => h₂.trans h₁) (fun _ l => by cases l <;> rfl) (fun _ _ => rfl) h
  rw [← emit_eq_ok error, ← hoptions]
  unfold conclude
  generalize h.emit plan.channel error = emitted
  obtain ⟨q, t⟩ := emitted
  cases q with
  | error p => simp
  | ok =>
    cases error with
    | some p => simp
    | none =>
      rw [← eraseOutput_eq_ok plan]
      dsimp only
      cases (eraseOutput plan t).1 <;> simp [Except.map]

/-- Only a cancellation, or a name that the system does not take, takes the place of an outcome. -/
theorem conclude_error {plan : Plan} {h : Host} {error : Option Problem} {p : Problem}
    (herror : (conclude plan error h).1 = .error p) :
    p = .cancelled ∨ p = .fault .nullInPath := by
  cases hemit : h.emit plan.channel error with
  | mk q t =>
    unfold conclude at herror
    rw [hemit] at herror
    cases q with
    | error q =>
      cases herror
      cases hc : h.channels[plan.channel]? with
      | none =>
        unfold emit at hemit
        rw [hc] at hemit
        cases hemit
      | some c =>
        have hresult := (emit_spec hc error).1
        rw [hemit] at hresult
        dsimp only at hresult
        split at hresult
        · exact Or.inl (Except.error.inj hresult)
        · cases hresult
    | ok =>
      cases error with
      | some p => cases herror
      | none =>
        dsimp only at herror
        rcases eraseOutput_spec plan t with
          ⟨-, heq⟩ | ⟨-, ⟨-, heq⟩ | ⟨-, ⟨_, -, heq⟩ | ⟨_, -, heq⟩⟩⟩
        all_goals
          rw [heq] at herror
          cases herror
        exact Or.inr rfl

end Pipeline

namespace Reuse
variable {o : Options} {root earlierRoot : String} {refused : String → Bool} {p : Progress}

/-- Nothing in the log of what was done announces anything. -/
def Progress.Discreet (p : Progress) : Prop := ∀ e ∈ p.log, e.isAnnouncement = false

theorem Progress.Discreet.log (hp : p.Discreet) {e : LogEntry} (he : e.isAnnouncement = false)
    (t : FileTree) : Progress.Discreet ⟨t, p.log ++ [e]⟩ := by
  intro e' he'
  rcases List.mem_append.mp he' with hmem | hmem
  · exact hp e' hmem
  · rwa [List.mem_singleton.mp hmem]

theorem discreet_prepareArtifact (hp : p.Discreet) (earlier target : String) :
    (prepareArtifact earlier target p).2.Discreet := by
  unfold prepareArtifact
  split
  · exact hp
  · split
    · exact hp
    · split
      · exact hp
      · exact hp.log rfl _

theorem discreet_prepareSource (hp : p.Discreet) (file : String) (locales : List String) :
    (prepareSource o root earlierRoot file locales p).2.Discreet := by
  induction locales generalizing p with
  | nil => exact hp
  | cons l r ih =>
    rw [prepareSource_cons]
    exact ih (discreet_prepareArtifact hp _ _)

theorem discreet_prepareAll (hp : p.Discreet) (files : List String) :
    (prepareAll o root earlierRoot refused files p).2.Discreet := by
  induction files generalizing p with
  | nil => exact hp
  | cons file r ih =>
    unfold prepareAll
    dsimp only
    split
    · exact ih hp
    · exact ih (discreet_prepareSource hp file _)

theorem discreet_filterDirty (o : Options) (root : String) (files : List String)
    (earlier : Option String) (refused : String → Bool) (t : FileTree) :
    (filterDirty o root files earlier refused t).2.Discreet := by
  have hstart : Progress.Discreet ⟨t, []⟩ := nofun
  unfold filterDirty
  dsimp only
  split
  · exact hstart
  · next earlierRoot _ =>
    have hall : (prepareAll o root earlierRoot refused files ⟨t, []⟩).2.Discreet :=
      discreet_prepareAll hstart files
    split
    · exact hall.log rfl _
    · split
      · exact hall
      · exact hall.log rfl _

end Reuse

namespace Session
open Host Stage Pipeline Reuse PassListener

theorem watchAll_discreet (s : Watch.State Time PassResult) (k : Watch.SchedulerId) (now : Time)
    (files : List String) : ∀ e ∈ (s.watchAll k now files).1, e.isAnnouncement = false := by
  induction files generalizing s with
  | nil => exact nofun
  | cons f r ih =>
    have hone : ∀ e ∈ (s.watch k now f).2.1, e.isAnnouncement = false := by
      unfold Watch.State.watch
      split
      · exact nofun
      · dsimp only
        split
        · exact nofun
        · split
          · exact nofun
          · exact List.forall_mem_singleton.mpr rfl
    exact List.forall_mem_append.mpr ⟨hone, ih _⟩

theorem silent_watchSources (s : Session) (plan : Plan) :
    Silent s.env (s.watchSources plan).env := by
  unfold watchSources
  split
  · exact .refl s.env
  · have hplans (plans : List Plan) : Silent s.env { s.env with plans := plans } := ⟨rfl, rfl, rfl⟩
    exact (hplans _).trans (silent_report (watchAll_discreet _ _ _ _) _)

def dirtyFor (s : Session) (plan : Plan) : List String :=
  (filterDirty s.env.options plan.outputDir plan.files none (fun _ => false) s.env.tree).1

theorem prepareCall_pass (s : Session) (inputDir : String) (files : List String)
    (channel : ChannelId) :
    (s.prepareCall inputDir files channel).1 = pass (s.planFor inputDir files channel)
      (s.dirtyFor (s.planFor inputDir files channel)) := rfl

theorem silent_prepareCall (s : Session) (inputDir : String) (files : List String)
    (channel : ChannelId) : Silent s.env (s.prepareCall inputDir files channel).2.env := by
  unfold prepareCall
  dsimp only
  refine Silent.trans ?_ (silent_watchSources _ _)
  have htree (t : FileTree) : Silent s.env { s.env with tree := t } := ⟨rfl, rfl, rfl⟩
  exact (htree _).trans (silent_report (discreet_filterDirty _ _ _ _ _ _) _)

/-- A compile call goes silently up to the end of its pass. -/
theorem silent_stages (s : Session) (inputDir : String) (files : List String)
    (channel : ChannelId) :
    (ExceptT.run (stages (s.planFor inputDir files channel)
        (s.dirtyFor (s.planFor inputDir files channel)))
      (s.prepareCall inputDir files channel).2.env).Within Silent s.env :=
  .of_earlier Silent.trans (silent_prepareCall s inputDir files channel)
    ((works_stages _ _ _).mono fun _ _ => Works.silent)

/-- A first pass in whose pauses others go on: how its call ends, and the strides that the call
makes once its channel is open. -/
def compileAmid (others : Others Host) (s : Session) (inputDir : String) (files : List String)
    (channel : ChannelId) : Except Problem Unit × List (Host × Host) :=
  let (first, t) := s.prepareCall inputDir files channel
  ((Stage.amid others first (t.env, 0)).1.bind raised,
    (ExceptT.run first t.env).strides others s.env 0)

theorem compileAmid_idle (s : Session) (inputDir : String) (files : List String)
    (channel : ChannelId) :
    (s.compileAmid .idle inputDir files channel).1 = (s.compileFrom inputDir files channel).1 ∧
    ∃ earlier u, (s.compileAmid .idle inputDir files channel).2 =
      earlier ++ [(u, (s.compileFrom inputDir files channel).2.env)] := by
  unfold compileAmid compileFrom
  generalize s.prepareCall inputDir files channel = prepared
  obtain ⟨first, t⟩ := prepared
  obtain ⟨hresult, hstate⟩ := Outcome.amid_idle (ExceptT.run first t.env) 0
  obtain ⟨earlier, u, hstrides, -⟩ := (ExceptT.run first t.env).exists_strides .idle
    (fun r _ => r) (fun _ t => t) s.env 0
  rw [hstate] at hstrides
  unfold Stage.amid Flow.run
  dsimp only
  rw [hresult]
  generalize (ExceptT.run first t.env).run = result at hstrides ⊢
  rcases result with ⟨p | (_ | p), h⟩
  · exact ⟨rfl, earlier, u, hstrides⟩
  · exact ⟨rfl, earlier, u, hstrides⟩
  · exact ⟨rfl, earlier, u, hstrides⟩

/-- The session once a compile call has opened its channel. -/
def opened (s : Session) (listener : Option PassListener) : Session :=
  { s with env := (s.env.openChannel listener).2 }

/-- The two kinds of compile calls: below a directory, and over some files. -/
inductive Call where
  | below (inputDir : String)
  | listed (files : List String)

namespace Call

def run (s : Session) (listener : Option PassListener) : Call → Except Problem Unit × Session
  | .below inputDir => s.compileTemplates inputDir listener
  | .listed files => s.compileTemplateFiles files listener

/-- Where a call runs the compiler, and its sources. There is no pass if no source is found. -/
def sources (t : Session) : Call → Except Problem (Option (String × List String))
  | .below inputDir =>
    (t.env.tree.findFiles inputDir sourceExtension).map fun files =>
      if files.isEmpty then none else some (inputDir, files)
  | .listed files => .ok (some (t.env.options.text .inputDir, files))

/-- A compile call in the pauses of whose pass others go on: how it ends, and the strides that it
makes once its channel is open. -/
def amid (others : Others Host) (s : Session) (listener : Option PassListener) (c : Call) :
    Except Problem Unit × List (Host × Host) :=
  let t := s.opened listener
  let announced (error : Option Problem) :=
    let (r, u) := t.announce s.env.channels.length error
    (r, [(t.env, u.env)])
  match c.sources t with
  | .error p => if p.isReported then announced (some p) else (.error p, [(t.env, t.env)])
  | .ok none => announced none
  | .ok (some (inputDir, files)) => t.compileAmid others inputDir files s.env.channels.length

/-- The plan of a call's pass, what it compiles, and the host in which it begins. -/
def pass? (s : Session) (listener : Option PassListener) (c : Call) :
    Option (Plan × List String × Host) :=
  match c.sources (s.opened listener) with
  | .ok (some (inputDir, files)) =>
    some ((s.opened listener).planFor inputDir files s.env.channels.length,
      (s.opened listener).dirtyFor
        ((s.opened listener).planFor inputDir files s.env.channels.length),
      ((s.opened listener).prepareCall inputDir files s.env.channels.length).2.env)
  | _ => none

def Decodes (others : Others Host) (s : Session) (listener : Option PassListener) (c : Call) :
    Prop :=
  ∀ plan dirty h, c.pass? s listener = some (plan, dirty, h) →
    Pipeline.Decodes others plan dirty h

/-- The sources of a call cannot be listed, or its pass fails. -/
def Fails (others : Others Host) (s : Session) (listener : Option PassListener) (c : Call)
    (p : Problem) : Prop :=
  c.sources (s.opened listener) = .error p ∨
  ∃ plan dirty h, c.pass? s listener = some (plan, dirty, h) ∧
    Pipeline.Fails others plan dirty h p

/-- What announces the outcome of a call. Without a pass there is nothing to erase. -/
def announce (s : Session) (listener : Option PassListener) (c : Call) (error : Option Problem)
    (h : Host) : Except Problem Unit × Host :=
  match c.pass? s listener with
  | some (plan, _, _) => (conclude plan error h).map (·.bind raised) id
  | none => (h.emit s.env.channels.length error).map (·.bind fun _ => raised error) id

theorem amid_idle (s : Session) (listener : Option PassListener) (c : Call) :
    (c.amid .idle s listener).1 = (c.run s listener).1 ∧
    ∃ earlier u, (c.amid .idle s listener).2 = earlier ++ [(u, (c.run s listener).2.env)] := by
  cases c with
  | listed files => exact compileAmid_idle _ _ _ _
  | below inputDir =>
    have hopened : (s.env.openChannel listener).2.tree = (s.opened listener).env.tree := rfl
    unfold amid run sources compileTemplates
    dsimp only
    rw [hopened]
    cases (s.opened listener).env.tree.findFiles inputDir sourceExtension with
    | error p =>
      dsimp only [Except.map]
      split
      · exact ⟨rfl, [], _, rfl⟩
      · exact ⟨rfl, [], _, rfl⟩
    | ok files =>
      cases files with
      | nil => exact ⟨rfl, [], _, rfl⟩
      | cons f r => exact compileAmid_idle _ _ _ _

theorem announces_of_none {s : Session} {listener : Option PassListener} {c : Call}
    (hpass : c.pass? s listener = none) (error : Option Problem) :
    Announces Silent (c.announce s listener error)
      ((s.opened listener).announce s.env.channels.length error).1
      [((s.opened listener).env,
        ((s.opened listener).announce s.env.channels.length error).2.env)] := by
  unfold announce
  rw [hpass]
  exact ⟨[], _, _, rfl, rfl, List.forall_mem_nil _, .refl _⟩

theorem sources_error {t : Session} {c : Call} {p : Problem} (herror : c.sources t = .error p) :
    p.isReported = true ∨ ∃ f, p = .fault f := by
  cases c with
  | listed files => cases herror
  | below inputDir =>
    have hfind : t.env.tree.findFiles inputDir sourceExtension = .error p := by
      change Except.map _ (t.env.tree.findFiles inputDir sourceExtension) = _ at herror
      cases hfound : t.env.tree.findFiles inputDir sourceExtension with
      | ok files =>
        rw [hfound] at herror
        cases herror
      | error q =>
        rw [hfound] at herror
        cases herror
        rfl
    rcases FileTree.search_error hfind with ⟨kind, -, rfl⟩ | ⟨ns, q, kind, -, -, rfl⟩
    · unfold FileTree.unsearchable
      split
      · exact Or.inr ⟨_, rfl⟩
      · exact Or.inl rfl
    · exact Or.inl rfl

theorem fails_of_pass {others : Others Host} {s : Session} {listener : Option PassListener}
    {c : Call} {plan : Plan} {dirty : List String} {h : Host}
    (hpass : c.pass? s listener = some (plan, dirty, h)) :
    c.Fails others s listener = Pipeline.Fails others plan dirty h := by
  funext p
  have hlisted : c.sources (s.opened listener) ≠ .error p := by
    intro herror
    unfold pass? at hpass
    rw [herror] at hpass
    cases hpass
  unfold Fails
  rw [hpass]
  simp [hlisted]

theorem fails_of_none {others : Others Host} {s : Session} {listener : Option PassListener}
    {c : Call} (hpass : c.pass? s listener = none) (p : Problem) :
    c.Fails others s listener p ↔ c.sources (s.opened listener) = .error p := by
  unfold Fails
  rw [hpass]
  simp

theorem reports {others : Others Host} {s : Session} {listener : Option PassListener} {c : Call}
    (hdec : c.Decodes others s listener) :
    Reports Silent (c.announce s listener) .error (c.Fails others s listener)
      (c.amid others s listener).1 (c.amid others s listener).2 := by
  unfold Decodes at hdec
  unfold amid
  dsimp only
  cases hsources : c.sources (s.opened listener) with
  | error p =>
    have hpass : c.pass? s listener = none := by
      unfold pass?
      rw [hsources]
    have honly (q : Problem) : p = q ↔ c.Fails others s listener q := by
      rw [fails_of_none hpass, hsources, Except.error.injEq]
    rcases sources_error hsources with hreported | ⟨f, rfl⟩
    · simp only [hreported]
      exact .announced (fun q => Option.some_inj.trans (honly q))
        (fun q hq => (honly q).mpr hq ▸ hreported) (announces_of_none hpass _)
    · exact .escaped (fun q => eq_comm.trans (honly q)) rfl
        (List.forall_mem_singleton.mpr (.refl _))
  | ok found =>
    cases found with
    | none =>
      have hpass : c.pass? s listener = none := by
        unfold pass?
        rw [hsources]
      have hnever (q : Problem) : ¬ c.Fails others s listener q := by
        rw [fails_of_none hpass, hsources]
        exact nofun
      have hnone (q : Problem) : none = some q ↔ c.Fails others s listener q := by
        simp [hnever q]
      exact .announced hnone (fun q hq => absurd hq (hnever q)) (announces_of_none hpass _)
    | some found =>
      obtain ⟨inputDir, files⟩ := found
      have hpass : c.pass? s listener = some
          ((s.opened listener).planFor inputDir files s.env.channels.length,
            (s.opened listener).dirtyFor
              ((s.opened listener).planFor inputDir files s.env.channels.length),
            ((s.opened listener).prepareCall inputDir files s.env.channels.length).2.env) := by
        unfold pass?
        rw [hsources]
      have hreports := (pass_reports (hdec _ _ _ hpass)
        (silent_stages (s.opened listener) inputDir files s.env.channels.length)).map
          (·.bind raised)
      have hannounce : c.announce s listener = fun error h =>
          (conclude ((s.opened listener).planFor inputDir files s.env.channels.length) error h).map
            (·.bind raised) id := by
        unfold announce
        rw [hpass]
      rw [← prepareCall_pass] at hreports
      rw [hannounce, fails_of_pass hpass]
      exact hreports

end Call

/-- A recompile pass returns what it announces. -/
theorem recompile_reports {others : Others Host} {x : Watch.Pass} {h : Host} {plan : Plan}
    (hplan : h.plans[x.scheduler]? = some plan) (hdec : Pipeline.Decodes others plan x.files h) :
    ∃ o, recompile x h = .going o ∧
      Reports Works (fun error h => (conclude plan error h).map passResult id)
        (fun p => passResult (.error p)) (Pipeline.Fails others plan x.files h)
        (o.amid others 0).1 (o.strides others h 0) := by
  have hreports := (pass_reports hdec (works_stages plan x.files h)).map passResult
  refine ⟨(ExceptT.run (pass plan x.files) h).bind fun r t => .done (passResult r) t, ?_, ?_⟩
  · unfold recompile
    rw [hplan]
  · rw [Outcome.amid_bind, Outcome.strides_map]
    exact hreports

def bareSession : Session :=
  start (Host.new sampleSurroundings (.empty []) ⟨2024, 1, 2, 3, 4, 5, 0⟩ (.ofInt 0))
    (.table [] .empty)

end Session

end TemplateHost
