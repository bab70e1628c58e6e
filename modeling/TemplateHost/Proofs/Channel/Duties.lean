import TemplateHost.Proofs.Channel.History
import TemplateHost.Proofs.Sequence

/-!
# Announcements

Whatever listeners do, the duties of an announcement are fixed when it starts: those of the
registrations that stand then, in order, and its end. Each task that is done or left to do is a duty
of an announcement that has started, and together they are all of them, each in its place, unless
something was raised meanwhile that is no error: then what was left to do is given up.
-/
namespace TemplateHost.Channel
variable {α ε : Type} [DecidableEq α]

namespace Event

/-- The duties that begin with an event which follows `h`. -/
def duties (h : History α ε) : Event α ε → List (Duty α ε)
  | .emitted error => h.duties h.length error
  | _ => []

end Event

section Step
variable (script : α → List (Action α ε)) (s : Session α ε) (agenda : List (Item α ε))

omit [DecidableEq α] in
theorem registrations_cancel (c : Channel α ε) (id : String) :
    (c.cancel id).registrations = c.registrations := by
  unfold cancel
  split <;> rfl

theorem registrations_step (x : Task α ε) :
    (step script s agenda x.item).1.channel.registrations =
      s.channel.registrations.filter (fun y => !x.event.ends y) ++
        x.event.registration?.toList := by
  have hall (l : List (Registration α)) : l = l.filter (fun _ => !false) ++ [] := by simp
  cases x with
  | act a =>
    cases a with
    | on l | once l => exact congrArg (· ++ _) (by simp [Task.event, Action.event, Event.ends])
    | off l => simp [Task.item, step, perform, Task.event, Action.event, Event.ends,
        Event.registration?, off]
    | emit error => simp [Task.item, step, perform, Task.event, Action.event, Event.ends,
        Event.registration?, beginEmit]
    | cancel id => exact (registrations_cancel _ id).trans (hall _)
    | wait id | fail | abort => exact hall _
  | due d => cases d <;> exact hall _

theorem calls_step (x : Task α ε) :
    (step script s agenda x.item).1.calls =
      s.calls ++ (x.duty?.bind Duty.call?).toList := by
  cases x with
  | act a => cases a <;> exact (List.append_nil _).symm
  | due d =>
    cases d with
    | call => rfl
    | complete => exact (List.append_nil _).symm

/-- What is left to do after a task is, without the names, what the channel has left to do. -/
theorem item_next {h : History α ε} (hs : s.channel.registrations = h.standing.map (·.2))
    (x : Task α ε) (rest : List (Task α ε)) :
    (x.next script h rest).map Task.item =
      (step script s (rest.map Task.item) x.item).2 := by
  cases x with
  | act a =>
    cases a with
    | emit error =>
      simp [Task.next, Task.item, step, perform, calls, listeners, hs, History.duties, Duty.item,
        Function.comp_def]
    | fail =>
      change (rest.dropWhile (isAction ∘ Task.item)).map Task.item = _
      exact List.dropWhile_map.symm
    | on | once | off | wait | cancel | abort => rfl
  | due d =>
    cases d with
    | call e r l error => simp [Task.next, Task.item, Duty.item, step]
    | complete e error => rfl

theorem duty?_next (h : History α ε) {x : Task α ε} (hx : x ≠ .act .abort)
    (rest : List (Task α ε)) :
    (x.next script h rest).filterMap Task.duty? =
      x.event.duties h ++ rest.filterMap Task.duty? := by
  cases x with
  | act a =>
    cases a with
    | emit error =>
      rw [Task.next, List.filterMap_append, List.filterMap_map]
      exact congrArg (· ++ _) (List.filterMap_some ..)
    | fail =>
      change (rest.dropWhile fun x => isAction x.item).filterMap _ = rest.filterMap _
      induction rest with
      | nil => rfl
      | cons y rest ih =>
        cases y with
        | act b => exact ih
        | due d => cases d <;> rfl
    | abort => exact absurd rfl hx
    | on | once | off | wait | cancel => rfl
  | due d =>
    cases d with
    | call e r l error =>
      rw [Task.next, List.filterMap_append, List.filterMap_map]
      exact congrArg (· ++ _) (List.filterMap_eq_nil_iff.mpr fun _ _ => rfl)
    | complete e error => rfl

end Step

/-- What holds of the announcements in every run. -/
structure Sound (t : Trace α ε) : Prop where
  calls_eq : t.session.calls = t.history.calls
  registrations_eq : t.session.channel.registrations = t.history.standing.map (·.2)
  started (d : Duty α ε) : d ∈ t.record →
    ∃ before error after, t.history = before ++ .emitted error :: after ∧
      before.length = d.emission
  /-- What is left to do is left by announcements since which nothing was given up. -/
  live (d : Duty α ε) : d ∈ t.agenda.filterMap Task.duty? →
    ∃ before error after, t.history = before ++ .emitted error :: after ∧
      before.length = d.emission ∧ .aborted ∉ after
  recorded (before after : History α ε) (error : Option ε) :
    t.history = before ++ .emitted error :: after →
      t.record.filter (fun d => d.emission = before.length) <+:
          before.duties before.length error ∧
        (.aborted ∉ after → t.record.filter (fun d => d.emission = before.length) =
          before.duties before.length error)
  /-- What was given up is not done. -/
  dropped (before after : History α ε) (d : Duty α ε) :
    t.history = before ++ .aborted :: after → .did d ∈ after → before.length < d.emission

theorem Sound.start : Sound (Trace.start : Trace α ε) where
  calls_eq := rfl
  registrations_eq := rfl
  started d hd := absurd hd List.not_mem_nil
  live d hd := absurd hd List.not_mem_nil
  recorded before after error heq := by simp [Trace.start] at heq
  dropped before after d heq := by simp [Trace.start] at heq

section Step
variable {t : Trace α ε} {x : Task α ε} {rest : List (Task α ε)}

theorem record_step (script : α → List (Action α ε)) (hx : x ≠ .act .abort) :
    (t.step script x rest).record = t.history.filterMap Event.duty? ++ x.duty?.toList ++
      (x.event.duties t.history ++ rest.filterMap Task.duty?) := by
  rw [Trace.record, Trace.step, duty?_next script _ hx, List.filterMap_append,
    ← Task.duty?_event x]
  rfl

theorem record_step_abort (script : α → List (Action α ε)) :
    (t.step script (.act .abort) rest).record = t.history.filterMap Event.duty? := by
  unfold Trace.record Trace.step
  rw [List.filterMap_append, List.append_assoc]
  exact List.append_nil _

omit [DecidableEq α] in
theorem event_eq_aborted : x.event = .aborted ↔ x = .act .abort := by
  cases x with
  | act a => cases a <;> simp [Task.event, Action.event]
  | due d => simp [Task.event]

theorem emission_of_mem_duties {h : History α ε} {e : Event α ε} {d : Duty α ε}
    (hd : d ∈ e.duties h) :
    d.emission = h.length ∧ ∃ error, e = .emitted error := by
  cases e with
  | emitted error =>
    refine ⟨?_, error, rfl⟩
    rcases List.mem_append.mp hd with hd | hd
    · obtain ⟨y, -, rfl⟩ := List.mem_map.mp hd
      rfl
    · rw [List.mem_singleton.mp hd]
      rfl
  | registered | removed | did | waited | cancelled | turned | failed | aborted => cases hd

theorem filter_record_step_of_ne (script : α → List (Action α ε)) (ht : t.agenda = x :: rest)
    (hx : x ≠ .act .abort) {e : Nat} (he : e ≠ t.history.length) :
    (t.step script x rest).record.filter (fun d => d.emission = e) =
      t.record.filter (fun d => d.emission = e) := by
  have hnone : (x.event.duties t.history).filter (fun d => d.emission = e) = [] :=
    List.filter_eq_nil_iff.mpr fun d hd => by simp [(emission_of_mem_duties hd).1, he.symm]
  rw [record_step script hx, Trace.record_eq_of_agenda ht]
  simp only [List.filter_append, hnone, List.nil_append]

theorem Sound.filter_record_step (hs : Sound t) (script : α → List (Action α ε))
    (ht : t.agenda = x :: rest) (hx : x ≠ .act .abort) :
    (t.step script x rest).record.filter (fun d => d.emission = t.history.length) =
      x.event.duties t.history := by
  have hold : ∀ d ∈ t.record, d.emission ≠ t.history.length := by
    intro d hd heq
    obtain ⟨before, error, after, hh, hlength⟩ := hs.started d hd
    have := congrArg List.length hh
    simp only [List.length_append, List.length_cons] at this
    omega
  rw [Trace.record_eq_of_agenda ht] at hold
  have hbefore := List.filter_eq_nil_iff.mpr fun d hd =>
    decide_eq_true_iff.not.mpr (hold d (List.mem_append_left _ hd))
  have hafter := List.filter_eq_nil_iff.mpr fun d hd =>
    decide_eq_true_iff.not.mpr (hold d (List.mem_append_right _ hd))
  have hall : (x.event.duties t.history).filter (fun d => d.emission = t.history.length) =
      x.event.duties t.history :=
    List.filter_eq_self.mpr fun d hd => decide_eq_true (emission_of_mem_duties hd).1
  rw [record_step script hx, List.filter_append, hbefore, List.nil_append, List.filter_append,
    hall, hafter, List.append_nil]

omit [DecidableEq α] in
/-- An event of some kind comes before another one if there is none of its kind after that. -/
theorem length_lt_of_not_mem {h before after before' after' : History α ε} {e e' : Event α ε}
    (heq : h = before ++ e :: after) (heq' : h = before' ++ e' :: after') (hne : e ≠ e')
    (hnot : e ∉ after') : before.length < before'.length := by
  rcases List.append_eq_append_iff.mp (heq.symm.trans heq') with ⟨c, hc, hrest⟩ | ⟨c, hc, hrest⟩
  · cases c with
    | nil => exact absurd (List.cons.inj hrest).1 hne
    | cons b c =>
      rw [hc, List.length_append, List.length_cons]
      omega
  · cases c with
    | nil => exact absurd (List.cons.inj hrest).1.symm hne
    | cons b c =>
      refine absurd ?_ hnot
      rw [(List.cons.inj hrest).2]
      exact List.mem_append_right _ List.mem_cons_self

section Kept
variable (hs : Sound t) (script : α → List (Action α ε)) (ht : t.agenda = x :: rest)
  {before after : History α ε}
include hs ht

theorem Sound.started_step {d : Duty α ε} (hd : d ∈ (t.step script x rest).record) :
    ∃ before error after, t.history ++ [x.event] = before ++ .emitted error :: after ∧
      before.length = d.emission := by
  by_cases hmem : d ∈ x.event.duties t.history
  · obtain ⟨hlength, error, hx⟩ := emission_of_mem_duties hmem
    exact ⟨t.history, error, [], by rw [hx], hlength.symm⟩
  · have hold : d ∈ t.record := by
      by_cases hx : x = .act .abort
      · subst x
        rw [record_step_abort] at hd
        exact List.mem_append_left _ hd
      · rw [record_step script hx] at hd
        rw [Trace.record_eq_of_agenda ht]
        simpa [hmem, or_assoc] using hd
    obtain ⟨before, error, after, hh, hlength⟩ := hs.started d hold
    exact ⟨before, error, after ++ [x.event], by rw [hh]; simp, hlength⟩

theorem Sound.live_step {d : Duty α ε}
    (hd : d ∈ (x.next script t.history rest).filterMap Task.duty?) :
    ∃ before error after, t.history ++ [x.event] = before ++ .emitted error :: after ∧
      before.length = d.emission ∧ .aborted ∉ after := by
  by_cases hx : x = .act .abort
  · subst x
    exact absurd hd List.not_mem_nil
  · rw [duty?_next script _ hx] at hd
    rcases List.mem_append.mp hd with hnew | hold
    · obtain ⟨hlength, error, hevent⟩ := emission_of_mem_duties hnew
      exact ⟨t.history, error, [], by rw [hevent], hlength.symm, List.not_mem_nil⟩
    · obtain ⟨before, error, after, hh, hlength, hafter⟩ := hs.live d <| by
        rw [ht, ← List.singleton_append, List.filterMap_append]
        exact List.mem_append_right _ hold
      refine ⟨before, error, after ++ [x.event], by rw [hh]; simp, hlength, fun hmem => ?_⟩
      rcases List.mem_append.mp hmem with hmem | hmem
      · exact hafter hmem
      · exact hx (event_eq_aborted.mp (List.mem_singleton.mp hmem).symm)

theorem Sound.recorded_step {error : Option ε}
    (heq : t.history ++ [x.event] = before ++ .emitted error :: after) :
    (t.step script x rest).record.filter (fun d => d.emission = before.length) <+:
        before.duties before.length error ∧
      (.aborted ∉ after →
        (t.step script x rest).record.filter (fun d => d.emission = before.length) =
          before.duties before.length error) := by
  rcases Sequence.split_concat heq with ⟨after', hh, rfl⟩ | ⟨rfl, hevent, -⟩
  · obtain ⟨hpre, hall⟩ := hs.recorded before after' error hh
    by_cases hx : x = .act .abort
    · subst x
      refine ⟨?_, fun hafter => ?_⟩
      · rw [record_step_abort]
        refine List.IsPrefix.trans ?_ hpre
        unfold Trace.record
        rw [List.filter_append]
        exact List.prefix_append _ _
      · exact absurd (List.mem_append_right _ (List.mem_singleton_self _)) hafter
    · rw [filter_record_step_of_ne script ht hx (by rw [hh]; simp)]
      exact ⟨hpre, fun hafter => hall fun hmem => hafter (List.mem_append_left _ hmem)⟩
  · have hx : x ≠ .act .abort := by
      rintro rfl
      cases hevent
    rw [hs.filter_record_step script ht hx, ← hevent]
    exact ⟨List.prefix_rfl, fun _ => rfl⟩

omit script in
theorem Sound.dropped_step {d : Duty α ε}
    (heq : t.history ++ [x.event] = before ++ .aborted :: after) (hd : .did d ∈ after) :
    before.length < d.emission := by
  rcases Sequence.split_concat heq with ⟨after', hh, rfl⟩ | ⟨-, -, rfl⟩
  · rcases List.mem_append.mp hd with hd | hd
    · exact hs.dropped before after' d hh hd
    · -- What is done was left to do, so nothing was given up since its announcement started.
      have hdue : x.duty? = some d := by
        rw [← Task.duty?_event x, ← List.mem_singleton.mp hd]
        rfl
      obtain ⟨before', error, after, hh', hlength, hafter⟩ := hs.live d <| by
        rw [ht, List.filterMap_cons_some hdue]
        exact List.mem_cons_self
      rw [← hlength]
      exact length_lt_of_not_mem hh hh' (by simp) hafter
  · exact absurd hd List.not_mem_nil

theorem Sound.step : Sound (t.step script x rest) where
  calls_eq := by
    change (Channel.step script t.session _ x.item).1.calls = History.calls (t.history ++ [_])
    rw [calls_step, hs.calls_eq, ← Task.duty?_event x, History.calls_concat]
  registrations_eq := by
    change (Channel.step script t.session _ x.item).1.channel.registrations =
      (History.standing (t.history ++ [x.event])).map (·.2)
    rw [registrations_step, hs.registrations_eq, History.standing_concat, List.map_append,
      List.filter_map]
    cases x.event.registration? <;> rfl
  started _ hd := hs.started_step script ht hd
  live _ hd := hs.live_step script ht hd
  recorded _ _ _ heq := hs.recorded_step script ht heq
  dropped _ _ _ heq hd := hs.dropped_step ht heq hd

end Kept

theorem Sound.turn (hs : Sound t) (ids : List String) : Sound (t.turn ids) := by
  have hrecord : (t.turn ids).record = t.record := by
    unfold Trace.record Trace.turn
    rw [List.filterMap_append]
    exact congrArg (· ++ _) (List.append_nil _)
  refine ⟨?_, ?_, fun d hd => ?_, fun d hd => ?_, fun before after error heq => ?_,
    fun before after d heq hd => ?_⟩
  · exact hs.calls_eq.trans (by simp [Trace.turn, History.calls_concat, Event.duty?])
  · exact hs.registrations_eq.trans
      (by simp [Trace.turn, History.standing_concat, Event.ends, Event.registration?])
  · obtain ⟨before, error, after, hh, hlength⟩ := hs.started d (hrecord ▸ hd)
    exact ⟨before, error, after ++ [.turned ids], by simp [Trace.turn, hh], hlength⟩
  · obtain ⟨before, error, after, hh, hlength, hafter⟩ := hs.live d hd
    exact ⟨before, error, after ++ [.turned ids], by simp [Trace.turn, hh], hlength,
      by simp [hafter]⟩
  · rcases Sequence.split_concat heq with ⟨after', hh, rfl⟩ | ⟨-, hx, -⟩
    · rw [hrecord]
      obtain ⟨hpre, hall⟩ := hs.recorded before after' error hh
      exact ⟨hpre, fun hafter => hall fun hmem => hafter (List.mem_append_left _ hmem)⟩
    · cases hx
  · rcases Sequence.split_concat heq with ⟨after', hh, rfl⟩ | ⟨-, hx, -⟩
    · refine hs.dropped before after' d hh ?_
      simpa using hd
    · cases hx

end Step

theorem Run.sound {t : Trace α ε} (run : Run t) : Sound t := by
  induction run with
  | start => exact .start
  | @act t _ ht a ih =>
    have hrecord : ({ t with agenda := [.act a] } : Trace α ε).record = t.record := by
      rw [Trace.record, Trace.record, ht]
      rfl
    exact ⟨ih.calls_eq, ih.registrations_eq, fun d hd => ih.started d (hrecord ▸ hd),
      fun d hd => absurd hd List.not_mem_nil,
      fun before after error hh => hrecord ▸ ih.recorded before after error hh, ih.dropped⟩
  | step _ ht script ih => exact ih.step script ht
  | turn _ ids ih => exact ih.turn ids

section Agenda
variable (script : α → List (Action α ε))

theorem Run.runAgenda {t : Trace α ε} (run : Run t) (fuel : Nat) :
    ∃ t' : Trace α ε, Run t' ∧
      t'.session = Channel.runAgenda script fuel t.session (t.agenda.map Task.item) := by
  induction fuel generalizing t with
  | zero => exact ⟨t, run, rfl⟩
  | succ fuel ih =>
    cases ht : t.agenda with
    | nil => exact ⟨t, run, rfl⟩
    | cons x rest =>
      obtain ⟨t', run', hsession⟩ := ih (run.step ht script)
      refine ⟨t', run', hsession.trans ?_⟩
      change Channel.runAgenda script fuel _ ((x.next script t.history rest).map Task.item) = _
      rw [item_next script t.session run.sound.registrations_eq]
      rfl

/-- A session that goes on where calls were made and listeners raised before. -/
def Session.after (s : Session α ε) (calls : List (α × Option ε)) (failures aborts : Nat) :
    Session α ε :=
  ⟨s.channel, calls ++ s.calls, failures + s.failures, aborts + s.aborts⟩

variable (s : Session α ε) (calls : List (α × Option ε)) (failures aborts : Nat)

theorem step_after (agenda : List (Item α ε)) (x : Item α ε) :
    step script (s.after calls failures aborts) agenda x =
      ((step script s agenda x).1.after calls failures aborts,
        (step script s agenda x).2) := by
  cases x with
  | act a => cases a <;> rfl
  | call l error => simp [step, Session.after]
  | endEmit error => rfl

theorem runAgenda_after (fuel : Nat) (agenda : List (Item α ε)) :
    Channel.runAgenda script fuel (s.after calls failures aborts) agenda =
      (Channel.runAgenda script fuel s agenda).after calls failures aborts := by
  induction fuel generalizing s agenda with
  | zero => rfl
  | succ fuel ih =>
    cases agenda with
    | nil => rfl
    | cons x agenda =>
      rw [Channel.runAgenda, step_after]
      exact ih _ _

theorem Run.runAction {t : Trace α ε} (run : Run t) (ht : t.agenda = []) (a : Action α ε) :
    ∃ t' : Trace α ε, Run t' ∧
      t'.session = (Channel.runAction script t.session.channel a).after t.session.calls
        t.session.failures t.session.aborts := by
  unfold Channel.runAction
  generalize 100000 = fuel
  obtain ⟨t', run', hsession⟩ := (run.act ht a).runAgenda script fuel
  have hbefore : (⟨t.session.channel, [], 0, 0⟩ : Session α ε).after t.session.calls
      t.session.failures t.session.aborts = t.session := by
    simp [Session.after]
  have hafter := runAgenda_after script ⟨t.session.channel, [], 0, 0⟩ t.session.calls
    t.session.failures t.session.aborts fuel [.act a]
  rw [hbefore] at hafter
  refine ⟨t'.turn t'.session.channel.waits.keys, run'.turn _, ?_⟩
  have hsession : t'.session = _ := hsession.trans hafter
  unfold Trace.turn
  rw [turnOf_keys, hsession]
  rfl

end Agenda

end TemplateHost.Channel
