import TemplateHost.Proofs.Host.Announcement
import TemplateHost.Proofs.Host.Overlap
import TemplateHost.Proofs.Watch.Handling

/-!
# Successive compile calls

Every compile call has a scheduler of its own watch its sources, whose passes announce on the call's
channel and load from the call's output. A source that an earlier call has had watched stays with
the scheduler of that call. So whatever is compiled again is compiled for the first call that named
it, however often it has been compiled since.
-/
namespace TemplateHost

namespace Host
variable {h h' h'' : Host}

/-- The plans of the schedulers stay, and no channel is opened. -/
structure Steady (h h' : Host) : Prop where
  plans : h'.plans = h.plans
  channels : h'.channels.length = h.channels.length

theorem Steady.refl (h : Host) : Steady h h := ⟨rfl, rfl⟩

theorem Steady.trans (h₁ : Steady h h') (h₂ : Steady h' h'') : Steady h h'' :=
  ⟨h₂.plans.trans h₁.plans, h₂.channels.trans h₁.channels⟩

theorem Works.steady (hw : Works h h') : Steady h h' :=
  ⟨hw.plans, congrArg List.length hw.silent.channels⟩

theorem steady_hear (h : Host) (error : Option Problem) (l : PassListener) :
    Steady h (h.hear error l).2 := by
  cases l <;> exact ⟨rfl, rfl⟩

theorem steady_emit (h : Host) (k : ChannelId) (error : Option Problem) :
    Steady h (h.emit k error).2 :=
  emit_of_hear Steady.refl Steady.trans (fun h l => steady_hear h error l)
    (fun _ _ => ⟨rfl, List.length_modify ..⟩) h

end Host

namespace Pipeline
open Host Stage

theorem steady_eraseOutput (plan : Plan) (h : Host) : Steady h (eraseOutput plan h).2 := by
  obtain ⟨t, log, heq, -⟩ := eraseOutput_frame plan h
  rw [heq]
  exact ⟨rfl, rfl⟩

theorem steady_ending (plan : Plan) (r : Except Problem Unit) (h : Host) :
    Steady h (ending plan r h).2 := by
  unfold ending
  cases verdict r with
  | error p => exact .refl h
  | ok error =>
    exact conclude_of_emit Steady.trans (steady_emit h _ error) (steady_eraseOutput plan)

theorem steady_pass (plan : Plan) (dirty : List String) (h : Host) :
    (ExceptT.run (pass plan dirty) h).Within Steady h := by
  rw [run_pass]
  exact Outcome.Within.bind (R := Steady) Steady.trans
    ((works_stages plan dirty h).mono fun _ _ => Works.steady) fun r t => steady_ending plan r t

end Pipeline

namespace Session
open Host Stage Pipeline

/-- The passes that pause go on steadily. -/
def Patient (s : Session) : Prop :=
  ∀ p rest, s.paused.get? p = some rest → ∀ u, (rest u).Within Steady u

/-- Tasks have had a turn. -/
structure Moves (s t : Session) : Prop where
  handles : Watch.State.Handles s.watch t.watch
  steady : Steady s.env t.env
  patient : t.Patient

theorem steady_recompile (x : Watch.Pass) (h : Host) :
    ∃ o, recompile x h = .going o ∧ o.Within Steady h := by
  unfold recompile
  split
  · exact ⟨_, rfl, Steady.refl h⟩
  · exact ⟨_, rfl, Outcome.Within.bind (R := Steady) Steady.trans (steady_pass _ _ h) fun _ t =>
      Steady.refl t⟩

variable {s : Session}

theorem moves_absorb (hp : s.Patient) (p : Watch.PassId) {o : Outcome Host (Option PassResult)}
    (ho : o.Within Steady s.env) : Moves s (s.absorb environment p o) := by
  cases o with
  | done r h =>
    refine ⟨Watch.State.handles_endPass s.watch p r, ?_, fun q rest hq => ?_⟩
    · refine Steady.trans ho ?_
      unfold Watch.Loop.absorb Watch.Loop.endPass
      dsimp only
      split
      · exact ⟨rfl, rfl⟩
      · exact .refl h
    · have hqp : q ≠ p := by
        rintro rfl
        cases (Table.get?_erase_self s.paused q).symm.trans hq
      exact hp q rest ((Table.get?_erase_ne s.paused hqp).symm.trans hq)
  | paused h rest =>
    refine ⟨Watch.State.handles_refl s.watch, ho.1, fun q rest' hq => ?_⟩
    by_cases hqp : q = p
    · subst q
      have hget := (Table.get?_set_self s.paused p rest).symm.trans hq
      obtain rfl := Option.some.inj hget
      exact ho.2
    · exact hp q rest' ((Table.get?_set_ne s.paused hqp rest).symm.trans hq)

theorem moves_acceptJob (hp : s.Patient) (n : Watch.NotificationId) :
    Moves s (s.acceptJob environment n) := by
  refine ⟨?_, ?_, ?_⟩
  · rw [Watch.Loop.acceptJob_watch]
    exact Watch.State.handles_accept s.watch n _
  · unfold Watch.Loop.acceptJob
    dsimp only
    split <;> exact ⟨rfl, rfl⟩
  · unfold Watch.Loop.acceptJob
    dsimp only
    split <;> exact hp

theorem moves_proceedJob (hp : s.Patient) (n : Watch.NotificationId) :
    Moves s (s.proceedJob environment n) := by
  refine ⟨?_, ?_, ?_⟩
  · rw [Watch.Loop.proceedJob_watch]
    exact Watch.State.handles_proceed s.watch n
  · unfold Watch.Loop.proceedJob
    dsimp only
    split <;> exact ⟨rfl, rfl⟩
  · unfold Watch.Loop.proceedJob
    dsimp only
    split <;> exact hp

theorem moves_runNotification (hp : s.Patient) (n : Watch.NotificationId) :
    Moves s (s.runNotification environment n) := by
  unfold Watch.Loop.runNotification
  split
  · exact moves_acceptJob hp n
  · exact moves_proceedJob hp n
  · exact moves_proceedJob hp n
  · exact ⟨Watch.State.handles_refl s.watch, .refl s.env, hp⟩

theorem moves_runPass (hp : s.Patient) (p : Watch.PassId) :
    Moves s (s.runPass environment p) := by
  unfold Watch.Loop.runPass
  cases hrest : s.paused.get? p with
  | some rest => exact moves_absorb hp p (hp p rest hrest _)
  | none =>
    cases s.watch.passes[p]? with
    | none => exact ⟨Watch.State.handles_refl s.watch, .refl s.env, hp⟩
    | some x =>
      obtain ⟨o, ho, hwithin⟩ := steady_recompile x s.env
      have hbegin : environment.begin p x s.env = .going o := ho
      dsimp only
      rw [hbegin]
      exact moves_absorb hp p hwithin

theorem moves_turn (hp : s.Patient) (i : Nat) : Moves s (s.turn environment i) := by
  have hwithout {t : Session} (hm : Moves (s.without i) t) : Moves s t :=
    ⟨hm.handles, hm.steady, hm.patient⟩
  unfold Watch.Loop.turn
  cases s.queue[i]? with
  | none => exact ⟨Watch.State.handles_refl s.watch, .refl s.env, hp⟩
  | some j =>
    cases j with
    | notification n => exact hwithout (moves_runNotification (s := s.without i) hp n)
    | pass p => exact hwithout (moves_runPass (s := s.without i) hp p)

/-- A compile call opens its channel and prepares its first pass. -/
def Activity.call (a : Activity) (inputDir : String) (files : List String)
    (listener : Option PassListener) : Activity :=
  Activity.act ⟨a.session.opened listener, a.first⟩
    (.call inputDir files a.session.env.channels.length)

/-- Compile calls are awaited one after the other while sources are watched; between and during them
anything else goes on, and options change. The plans are those of the calls. -/
inductive Ledger (h : Host) (watcher : Watch.Watcher) : List Plan → Activity → Prop where
  | start : Ledger h watcher [] ⟨.start h watcher, none⟩
  | call {calls : List Plan} {a : Activity} (hr : Ledger h watcher calls a) (inputDir : String)
    (files : List String) (listener : Option PassListener) (hidle : a.first = none)
    (hwatching : a.session.env.options.flag .allowDynamicRecompile = true) :
    Ledger h watcher
      (calls ++ [a.session.planFor inputDir files a.session.env.channels.length])
      (a.call inputDir files listener)
  | act {calls : List Plan} {a : Activity} (hr : Ledger h watcher calls a) (x : Action)
    (hx : a.Allows x) (hcall : ∀ inputDir files channel, x ≠ .call inputDir files channel) :
    Ledger h watcher calls (a.act x)
  | configure {calls : List Plan} {a : Activity} (hr : Ledger h watcher calls a) (o : Options) :
    Ledger h watcher calls
      { a with session := a.session.updateHost fun h => { h with options := o } }

/-- The files that a compile call has watched. -/
def watched (cwd : String) (plan : Plan) : List String :=
  plan.files.map fun f => Path.absolute cwd (Path.under plan.inputDir f)

/-- The scheduler that is told of a change belongs to the first call that named the file. -/
def FirstNamed (cwd : String) (calls : List Plan) (c : Watch.Callback) : Prop :=
  calls.findIdx? (fun plan => decide (c.file ∈ watched cwd plan)) = some c.scheduler

/-- What a ledger and the session that it leads to have in common. -/
structure Kept (cwd : String) (calls : List Plan) (a : Activity) : Prop where
  plans : a.session.env.plans = calls
  schedulers : a.session.watch.schedulers.length = calls.length
  directory : a.session.watch.cwd = cwd
  registered (f : String) (c : Watch.Callback) :
    a.session.watch.watcher.callback? f = some c → FirstNamed cwd calls c
  known (f : String) : (∃ plan ∈ calls, f ∈ watched cwd plan) →
    a.session.watch.times.contains f = true ∨ a.session.watch.watcher.Refuses f
  reported (c : Watch.Callback) : c ∈ a.session.watch.reports → FirstNamed cwd calls c
  launched (x : Watch.Pass) : x ∈ a.session.watch.passes →
    ∃ c, a.session.watch.reports[x.owner]? = some c ∧ c.scheduler = x.scheduler
  channels : calls.Pairwise fun p q => p.channel < q.channel
  opened (plan : Plan) : plan ∈ calls → plan.channel < a.session.env.channels.length
  first (rest : Flow Host (Except Problem (Option Problem))) : a.first = some rest →
    ∀ u, (rest u).Within Steady u
  patient : a.session.Patient

section Kept
variable {cwd : String} {calls : List Plan} {a : Activity}

theorem FirstNamed.append {c : Watch.Callback} (hc : FirstNamed cwd calls c) (more : List Plan) :
    FirstNamed cwd (calls ++ more) c := by
  unfold FirstNamed at hc ⊢
  rw [List.findIdx?_append, hc]
  rfl

theorem firstNamed_concat {c : Watch.Callback} {plan : Plan}
    (hnew : ¬∃ plan ∈ calls, c.file ∈ watched cwd plan) (hc : c.file ∈ watched cwd plan)
    (hk : c.scheduler = calls.length) : FirstNamed cwd (calls ++ [plan]) c := by
  have hnone : calls.findIdx? (fun plan => decide (c.file ∈ watched cwd plan)) = none := by
    rw [List.findIdx?_eq_none_iff]
    intro p hp
    simpa using fun hm => hnew ⟨p, hp, hm⟩
  unfold FirstNamed
  rw [List.findIdx?_append, hnone, hk]
  simp [hc]

theorem FirstNamed.eq_zero {c : Watch.Callback} (hc : FirstNamed cwd calls c) {inputDir : String}
    {files : List String} (hsame : ∀ plan ∈ calls, plan.inputDir = inputDir ∧ plan.files = files) :
    c.scheduler = 0 := by
  obtain ⟨hlt, hnamed, hbefore⟩ := List.findIdx?_eq_some_iff_getElem.mp hc
  by_contra hne
  have hfirst := hbefore 0 (Nat.pos_of_ne_zero hne)
  have hwatched (i : Nat) (hi : i < calls.length) : watched cwd calls[i] =
      files.map fun f => Path.absolute cwd (Path.under inputDir f) := by
    obtain ⟨hdir, hfiles⟩ := hsame calls[i] (List.getElem_mem hi)
    unfold watched
    rw [hdir, hfiles]
  rw [hwatched] at hnamed hfirst
  exact hfirst hnamed

theorem Kept.moves (hk : Kept cwd calls a) {t : Session} (hm : Moves a.session t)
    {first : Option (Flow Host (Except Problem (Option Problem)))}
    (hfirst : ∀ rest, first = some rest → ∀ u, (rest u).Within Steady u) :
    Kept cwd calls ⟨t, first⟩ where
  plans := hm.steady.plans.trans hk.plans
  schedulers := hm.handles.schedulers.trans hk.schedulers
  directory := hm.handles.cwd.trans hk.directory
  registered f c hc := hk.registered f c (hm.handles.watcher ▸ hc)
  known f hf := (hk.known f hf).imp (hm.handles.times f) fun hr => hm.handles.watcher ▸ hr
  reported c hc := hk.reported c (hm.handles.reports ▸ hc)
  launched x hx := by
    rw [hm.handles.reports]
    exact (hm.handles.passes x hx).elim (hk.launched x) id
  channels := hk.channels
  opened plan hp := hm.steady.channels ▸ hk.opened plan hp
  first := hfirst
  patient := hm.patient

theorem Kept.absorb (hk : Kept cwd calls a) {o : Outcome Host (Except Problem (Option Problem))}
    (ho : o.Within Steady a.session.env) : Kept cwd calls (a.absorb o) := by
  cases o with
  | done r h =>
    exact hk.moves (t := { a.session with env := h })
      ⟨Watch.State.handles_refl _, ho, hk.patient⟩ fun _ hr => by cases hr
  | paused h rest =>
    refine hk.moves (t := { a.session with env := h })
      ⟨Watch.State.handles_refl _, ho.1, hk.patient⟩ fun rest' hr => ?_
    obtain rfl := Option.some.inj hr
    exact ho.2

theorem Kept.resume (hk : Kept cwd calls a) : Kept cwd calls a.resume := by
  unfold Activity.resume
  split
  · next rest hfirst => exact hk.absorb (hk.first rest hfirst a.session.env)
  · exact hk

theorem Kept.change (hk : Kept cwd calls a) {c : Watch.Callback}
    (hc : ∃ file, a.session.watch.watcher.callback? file = some c) :
    Kept cwd calls { a with session := (a.session.notify c).2 } where
  plans := hk.plans
  schedulers := hk.schedulers
  directory := hk.directory
  registered := hk.registered
  known := hk.known
  reported d hd := by
    obtain ⟨file, hfile⟩ := hc
    have hreports : (a.session.notify c).2.watch.reports = a.session.watch.reports ++ [c] :=
      List.map_append
    rcases List.mem_append.mp (hreports ▸ hd) with hold | hnew
    · exact hk.reported d hold
    · rw [List.mem_singleton.mp hnew]
      exact hk.registered file c hfile
  launched x hx := by
    have hreports : (a.session.notify c).2.watch.reports = a.session.watch.reports ++ [c] :=
      List.map_append
    obtain ⟨d, hd, hs⟩ := hk.launched x hx
    refine ⟨d, ?_, hs⟩
    rw [hreports, List.getElem?_append_left (List.getElem?_eq_some_iff.mp hd).1]
    exact hd
  channels := hk.channels
  opened := hk.opened
  first := hk.first
  patient := hk.patient

theorem Kept.act (hk : Kept cwd calls a) {x : Action} (hx : a.Allows x)
    (hcall : ∀ inputDir files channel, x ≠ .call inputDir files channel) :
    Kept cwd calls (a.act x) := by
  cases x with
  | call inputDir files channel => exact absurd rfl (hcall inputDir files channel)
  | resume => exact hk.resume
  | turn i => exact hk.moves (moves_turn hk.patient i) hk.first
  | change c => exact hk.change hx
  | elapse clock now tree =>
    exact hk.moves (t := (a.act (.elapse clock now tree)).session)
      ⟨Watch.State.handles_refl _, ⟨rfl, rfl⟩, hk.patient⟩ hk.first

/-- What a compile call leaves when its first pass begins. -/
theorem prepareCall_watching (s : Session) (inputDir : String) (files : List String)
    (channel : ChannelId) (hwatching : s.env.options.flag .allowDynamicRecompile = true) :
    (s.prepareCall inputDir files channel).2.env.plans =
        s.env.plans ++ [s.planFor inputDir files channel] ∧
      (s.prepareCall inputDir files channel).2.env.channels = s.env.channels ∧
      (s.prepareCall inputDir files channel).2.paused = s.paused ∧
      (s.prepareCall inputDir files channel).2.watch =
        ((s.watch.addScheduler inputDir debounce).2.watchAll s.watch.schedulers.length s.env.clock
          files).2 := by
  unfold prepareCall watchSources
  dsimp only
  split
  · next hoff =>
    change (!s.env.options.flag .allowDynamicRecompile) = true at hoff
    rw [hwatching] at hoff
    cases hoff
  · exact ⟨rfl, rfl, rfl, rfl⟩

/-- What a compile call adds while sources are watched. -/
structure Begun (plan : Plan) (s t : Session) : Prop where
  plans : t.env.plans = s.env.plans ++ [plan]
  channels : t.env.channels.length = s.env.channels.length + 1
  paused : t.paused = s.paused
  registers : Watch.State.Registers s.watch.schedulers.length (watched s.watch.cwd plan)
    (s.watch.addScheduler plan.inputDir debounce).2 t.watch

section Begun
variable {plan : Plan} {s t : Session}

theorem begun_call (a : Activity) (inputDir : String) (files : List String)
    (listener : Option PassListener)
    (hwatching : a.session.env.options.flag .allowDynamicRecompile = true) :
    Begun (a.session.planFor inputDir files a.session.env.channels.length) a.session
      (a.call inputDir files listener).session := by
  obtain ⟨hplans, hchannels, hpaused, hwatch⟩ := prepareCall_watching (a.session.opened listener)
    inputDir files a.session.env.channels.length hwatching
  have hnew : (a.session.watch.addScheduler inputDir debounce).2.schedulers[
      a.session.watch.schedulers.length]? = some (.new inputDir debounce) :=
    List.getElem?_concat_length
  refine ⟨hplans, (congrArg List.length hchannels).trans List.length_append, hpaused, ?_⟩
  change Watch.State.Registers _ _ _ ((a.session.opened listener).prepareCall inputDir files
    a.session.env.channels.length).2.watch
  rw [hwatch]
  exact Watch.State.registers_watchAll hnew a.session.env.clock files

theorem Begun.schedulers (hb : Begun plan s t) :
    t.watch.schedulers.length = s.watch.schedulers.length + 1 :=
  (congrArg List.length hb.registers.schedulers).trans List.length_append

theorem Begun.reports (hb : Begun plan s t) : t.watch.reports = s.watch.reports :=
  congrArg (List.map Watch.Notification.callback) hb.registers.notifications

/-- Whoever is registered was so before, or for a file that no earlier call has named. -/
theorem Kept.registered_begun (hk : Kept cwd calls a) (hb : Begun plan a.session t) {f : String}
    {c : Watch.Callback} (hc : t.watch.watcher.callback? f = some c) :
    FirstNamed cwd (calls ++ [plan]) c := by
  rcases hb.registers.callbacks f c hc with hold | ⟨hs, hm, htimes, hcan⟩
  · exact (hk.registered f c hold).append _
  · rw [hk.directory] at hm
    refine firstNamed_concat (fun hold => ?_) hm (hs.trans hk.schedulers)
    rcases hk.known c.file hold with hknown | hrefused
    · exact absurd hknown (Bool.eq_false_iff.mp htimes)
    · exact hcan hrefused

theorem Kept.begun (hk : Kept cwd calls a) (hb : Begun plan a.session t)
    (hchannel : plan.channel = a.session.env.channels.length)
    {first : Option (Flow Host (Except Problem (Option Problem)))}
    (hfirst : ∀ rest, first = some rest → ∀ u, (rest u).Within Steady u) :
    Kept cwd (calls ++ [plan]) ⟨t, first⟩ where
  plans := hb.plans.trans (congrArg (· ++ _) hk.plans)
  schedulers := by rw [List.length_append, ← hk.schedulers, hb.schedulers, List.length_singleton]
  directory := hb.registers.cwd.trans hk.directory
  registered f c hc := hk.registered_begun hb hc
  known := by
    rintro f ⟨q, hq, hf⟩
    rcases List.mem_append.mp hq with hold | hlast
    · exact (hk.known f ⟨q, hold, hf⟩).imp (hb.registers.times f) (hb.registers.refuses f)
    · rw [List.mem_singleton.mp hlast, ← hk.directory] at hf
      exact hb.registers.known f hf
  reported c hc := (hk.reported c (hb.reports ▸ hc)).append _
  launched x hx := by
    rw [hb.reports]
    exact hk.launched x (hb.registers.passes ▸ hx)
  channels := by
    refine List.pairwise_append.mpr ⟨hk.channels, List.pairwise_singleton .., fun p hp q hq => ?_⟩
    rw [List.mem_singleton.mp hq, hchannel]
    exact hk.opened p hp
  opened q hq := by
    rw [hb.channels]
    rcases List.mem_append.mp hq with hold | hlast
    · exact Nat.lt_succ_of_lt (hk.opened q hold)
    · rw [List.mem_singleton.mp hlast, hchannel]
      exact Nat.lt_succ_self _
  first := hfirst
  patient p rest hr := hk.patient p rest (hb.paused ▸ hr)

end Begun

theorem Kept.call (hk : Kept cwd calls a) (inputDir : String) (files : List String)
    (listener : Option PassListener)
    (hwatching : a.session.env.options.flag .allowDynamicRecompile = true) :
    Kept cwd (calls ++ [a.session.planFor inputDir files a.session.env.channels.length])
      (a.call inputDir files listener) := by
  refine hk.begun (begun_call a inputDir files listener hwatching) rfl fun rest hr u => ?_
  obtain rfl := Option.some.inj hr
  exact steady_pass _ _ u

end Kept

theorem Ledger.kept {h : Host} {watcher : Watch.Watcher} (hplans : h.plans = [])
    (hw : ∀ f, watcher.callback? f = none) {calls : List Plan} {a : Activity}
    (hr : Ledger h watcher calls a) : Kept h.surroundings.cwd calls a := by
  induction hr with
  | start =>
    refine ⟨hplans, rfl, rfl, fun f c hc => ?_, nofun, nofun, nofun, .nil, nofun, nofun, nofun⟩
    cases (hw f).symm.trans hc
  | call hr inputDir files listener hidle hwatching ih => exact ih.call _ _ _ hwatching
  | act hr x hx hcall ih => exact ih.act hx hcall
  | @configure calls a hr o ih =>
    exact ih.moves (t := a.session.updateHost fun h => { h with options := o })
      ⟨Watch.State.handles_refl _, ⟨rfl, rfl⟩, ih.patient⟩ ih.first

/-- **Sources are compiled again for the first call that named them.** Among calls over the same
sources that is the first call: every later pass announces on its channel, and loads from its
output. No other call has that channel. -/
theorem recompiles_for_first_call {h : Host} {watcher : Watch.Watcher} {calls : List Plan}
    {a : Activity} {inputDir : String} {files : List String} (hplans : h.plans = [])
    (hw : ∀ f, watcher.callback? f = none) (hr : Ledger h watcher calls a)
    (hsame : ∀ plan ∈ calls, plan.inputDir = inputDir ∧ plan.files = files) {x : Watch.Pass}
    (hx : x ∈ a.session.watch.passes) :
    ∃ plan, calls.head? = some plan ∧
      recompile x a.session.env = .going (((Pipeline.pass plan x.files).run a.session.env).bind
        fun r h => .done (passResult r) h) ∧
      (∀ others, Pipeline.Decodes others plan x.files a.session.env →
        ∃ o, recompile x a.session.env = .going o ∧
          Reports Works (fun error h => (conclude plan error h).map passResult id)
            (fun p => passResult (.error p)) (Pipeline.Fails others plan x.files a.session.env)
            (o.amid others 0).1 (o.strides others a.session.env 0)) ∧
      (calls.getLast?.map Plan.channel = some plan.channel ↔ calls.length = 1) := by
  have hk := hr.kept hplans hw
  obtain ⟨c, hc, hscheduler⟩ := hk.launched x hx
  have hzero := (hk.reported c (List.mem_of_getElem? hc)).eq_zero hsame
  cases calls with
  | nil =>
    have hnone := hk.reported c (List.mem_of_getElem? hc)
    cases hnone
  | cons plan rest =>
    have hplan : a.session.env.plans[x.scheduler]? = some plan := by
      rw [hk.plans, ← hscheduler, hzero]
      rfl
    refine ⟨plan, rfl, ?_, fun others hdec => recompile_reports hplan hdec, ?_⟩
    · unfold recompile
      rw [hplan]
    · cases hlast : rest.getLast? with
      | none =>
        rw [List.getLast?_eq_none_iff.mp hlast]
        simp
      | some last =>
        have hlt := (List.pairwise_cons.mp hk.channels).1 last (List.mem_of_getLast? hlast)
        rw [List.getLast?_cons, hlast]
        refine iff_of_false (fun he => ?_) fun hlen => ?_
        · exact absurd (Option.some.inj he) (Nat.ne_of_gt hlt)
        · rw [List.length_eq_zero_iff.mp (Nat.succ.inj hlen)] at hlast
          cases hlast

/-- Two compile calls over the same source, the second one with a listener. -/
def Activity.calledTwice : Activity :=
  (((idle.call "/w" ["a.soy"] none).act .resume).call "/w" ["a.soy"]
    (some .recorder)).act .resume

def plansOfTwo : List Plan := Activity.calledTwice.session.env.plans

def changeAfterCalls : List Action :=
  [.elapse (.ofInt 2) watchful.now watchful.tree, .change ⟨0, "/w/a.soy", "a.soy"⟩, .turn 0,
    .turn 0]

theorem ledger_changeAfterCalls :
    Ledger watchful (.table [] .empty) plansOfTwo
      (Activity.calledTwice.after changeAfterCalls) := by
  have h₀ : Ledger watchful (.table [] .empty) [] _ := .start
  have h₁ := h₀.call "/w" ["a.soy"] none rfl rfl
  have h₂ := h₁.act .resume trivial nofun
  have h₃ := h₂.call "/w" ["a.soy"] (some .recorder) rfl rfl
  have h₄ := h₃.act .resume trivial nofun
  have h₅ := h₄.act (.elapse (.ofInt 2) watchful.now watchful.tree) trivial nofun
  have h₆ := h₅.act (.change ⟨0, "/w/a.soy", "a.soy"⟩) ⟨"/w/a.soy", rfl⟩ nofun
  exact (h₆.act (.turn 0) trivial nofun).act (.turn 0) trivial nofun

/-- The listener of the second call is on a channel on which no later pass announces. -/
theorem recompiles_for_first_call_calledTwice :
    ∃ x plan, (Activity.calledTwice.after changeAfterCalls).session.watch.passes = [x] ∧
      plansOfTwo.map Plan.channel = [0, 1] ∧ plansOfTwo.head? = some plan ∧
      recompile x (Activity.calledTwice.after changeAfterCalls).session.env =
        .going (((Pipeline.pass plan x.files).run
          (Activity.calledTwice.after changeAfterCalls).session.env).bind
            fun r h => .done (passResult r) h) ∧
      plansOfTwo.getLast?.map Plan.channel ≠ some plan.channel := by
  have hpasses : (Activity.calledTwice.after changeAfterCalls).session.watch.passes.map
      (fun x => x.files) = [["a.soy"]] := by decide +kernel
  obtain ⟨x, hx, -⟩ := List.map_eq_singleton_iff.mp hpasses
  have hsame : ∀ plan ∈ plansOfTwo, plan.inputDir = "/w" ∧ plan.files = ["a.soy"] := by
    intro plan hplan
    obtain ⟨p, q, hpq, hp, hq⟩ : ∃ p q, plansOfTwo = [p, q] ∧
      (p.inputDir = "/w" ∧ p.files = ["a.soy"]) ∧ q.inputDir = "/w" ∧ q.files = ["a.soy"] :=
      ⟨_, _, rfl, ⟨rfl, rfl⟩, rfl, rfl⟩
    rw [hpq] at hplan
    rcases List.mem_pair.mp hplan with rfl | rfl
    · exact hp
    · exact hq
  have hchannels : plansOfTwo.map Plan.channel = [0, 1] := rfl
  obtain ⟨plan, hhead, hpass, -, hiff⟩ := recompiles_for_first_call rfl (fun _ => rfl)
    ledger_changeAfterCalls hsame (hx ▸ List.mem_singleton_self x)
  have hlength : plansOfTwo.length = 2 := congrArg List.length hchannels
  refine ⟨x, plan, hx, hchannels, hhead, hpass, fun he => ?_⟩
  have hone := hiff.mp he
  rw [hlength] at hone
  cases hone

end Session

end TemplateHost
