import Mathlib.Data.List.Perm.Subperm
import TemplateHost.Proofs.Watch.Serialization
import TemplateHost.Watch.Loop

/-!
# Turns of the event loop

Queued jobs may be taken in any order. Each turn is one step of the schedulers or leaves them alone,
so the schedulers always make a run, and the passes in flight are the queued ones. A turn launches a
pass of a scheduler if that scheduler is idle and has dirty files, whatever the others do.
-/
namespace TemplateHost.Watch
variable {T σ ρ : Type}

def Job.pass? : Job → Option PassId
  | .notification _ => none
  | .pass p => some p

/-- The scheduler of which the turn of a job launches a pass. -/
def State.launching (s : State T ρ) : Job → Option SchedulerId
  | .pass _ => none
  | .notification n =>
    match s.notifications[n]? with
    | some ⟨c, .accepted⟩ | some ⟨c, .waiting⟩ =>
      match s.schedulers[c.scheduler]? with
      | some x => if x.isBusy || x.dirty.isEmpty then none else some c.scheduler
      | none => none
    | _ => none

/-- Whether passes always run, and none is held from outside. -/
def Environment.NeverHolds (e : Environment T σ ρ) : Prop :=
  ∀ p x env, ∃ o, e.begin p x env = .going o

namespace Loop
variable {e : Environment T σ ρ} {l l' : Loop T σ ρ} {i : Nat} {p : PassId} {n : NotificationId}

/-- The passes that have a job in the queue. -/
def flying (l : Loop T σ ρ) : List PassId := l.queue.filterMap Job.pass?

def without (l : Loop T σ ρ) (i : Nat) : Loop T σ ρ := { l with queue := l.queue.eraseIdx i }

/-- What a turn can do to the passes: it may end one, or launch one of a scheduler. -/
inductive Effect (l l' : Loop T σ ρ) : Option SchedulerId → Prop where
  | quiet (hp : l'.watch.passes = l.watch.passes) (hf : l'.flying.Subperm l.flying) :
      Effect l l' none
  | launch (x : Pass) (hp : l'.watch.passes = l.watch.passes ++ [x])
      (hf : l'.flying.Perm (l.watch.passes.length :: l.flying)) : Effect l l' (some x.scheduler)

theorem flying_without_pass (hj : l.queue[i]? = some (.pass p)) :
    l.flying.Perm (p :: (l.without i).flying) := by
  obtain ⟨hi, hj⟩ := List.getElem?_eq_some_iff.mp hj
  have hq := (List.getElem_cons_eraseIdx_perm hi).symm.filterMap Job.pass?
  rwa [hj] at hq

theorem flying_without_notification (hj : l.queue[i]? = some (.notification n)) :
    l.flying.Perm (l.without i).flying := by
  obtain ⟨hi, hj⟩ := List.getElem?_eq_some_iff.mp hj
  have hq := (List.getElem_cons_eraseIdx_perm hi).symm.filterMap Job.pass?
  rwa [hj] at hq

theorem flying_push_notification (l : Loop T σ ρ) (n : NotificationId) :
    (l.push (.notification n)).flying = l.flying := by
  simp [flying, push, Job.pass?]

theorem flying_push_pass (l : Loop T σ ρ) (p : PassId) :
    (l.push (.pass p)).flying.Perm (p :: l.flying) := by
  simp [flying, push, Job.pass?]

theorem flying_endPass (e : Environment T σ ρ) (l : Loop T σ ρ) (p : PassId)
    (result : Option ρ) (failed : Bool) : (l.endPass e p result failed).flying = l.flying := by
  simp [flying, endPass, List.filterMap_append, List.filterMap_map, Function.comp_def, Job.pass?]

theorem proceedJob_watch (e : Environment T σ ρ) (l : Loop T σ ρ) (n : NotificationId) :
    (l.proceedJob e n).watch = (l.watch.proceed n).2.2 := by
  unfold proceedJob
  dsimp only
  split <;> rfl

theorem proceedJob_flying_of_none (hp : (l.watch.proceed n).2.1 = none) :
    (l.proceedJob e n).flying = l.flying := by
  unfold proceedJob
  dsimp only
  rw [hp]
  rfl

theorem proceedJob_flying_of_some (hp : (l.watch.proceed n).2.1 = some p) :
    (l.proceedJob e n).flying.Perm (p :: l.flying) := by
  unfold proceedJob
  dsimp only
  rw [hp]
  exact flying_push_pass ..

theorem absorb_cases (e : Environment T σ ρ) (l : Loop T σ ρ) (p : PassId)
    (o : Outcome σ (Option ρ)) :
    (∃ r, (l.absorb e p o).watch = l.watch.endPass p r ∧ (l.absorb e p o).flying = l.flying) ∨
    (l.absorb e p o).watch = l.watch ∧ (l.absorb e p o).flying.Perm (p :: l.flying) := by
  cases o with
  | done r env => exact Or.inl ⟨r, rfl, flying_endPass e _ p r r.isNone⟩
  | paused env rest => exact Or.inr ⟨rfl, flying_push_pass ..⟩

theorem runPass_cases (he : e.NeverHolds) {x : Pass} (hp : l.watch.passes[p]? = some x) :
    (∃ r, (l.runPass e p).watch = l.watch.endPass p r ∧ (l.runPass e p).flying = l.flying) ∨
    (l.runPass e p).watch = l.watch ∧ (l.runPass e p).flying.Perm (p :: l.flying) := by
  unfold runPass
  split
  · exact absorb_cases ..
  · rename_i hnone
    rw [hp] at hnone
    cases hnone
  · rename_i y _ _
    obtain ⟨o, ho⟩ := he p y l.env
    rw [ho]
    exact absorb_cases ..

variable [Sub T] [LT T] [DecidableLT T]

def turn (e : Environment T σ ρ) (l : Loop T σ ρ) (i : Nat) : Loop T σ ρ :=
  match l.queue[i]? with
  | some j => (l.without i).runJob e j
  | none => l

theorem runUntilIdle_succ (fuel : Nat) (hl : l.queue ≠ []) :
    runUntilIdle e (fuel + 1) l = runUntilIdle e fuel (l.turn e 0) := by
  obtain ⟨j, rest, hq⟩ := List.exists_cons_of_ne_nil hl
  simp [runUntilIdle, turn, without, hq]

theorem acceptJob_watch (e : Environment T σ ρ) (l : Loop T σ ρ) (n : NotificationId) :
    (l.acceptJob e n).watch = (l.watch.accept n (e.clock l.env)).2 := by
  unfold acceptJob
  dsimp only
  split <;> rfl

theorem acceptJob_flying (e : Environment T σ ρ) (l : Loop T σ ρ) (n : NotificationId) :
    (l.acceptJob e n).flying = l.flying := by
  unfold acceptJob
  dsimp only
  split
  · exact flying_push_notification ..
  · rfl

/-- The schedulers have made a run, and the passes in flight in it are the queued ones. -/
structure Sound (cwd : String) (watcher : Watcher) (h : History ρ) (l : Loop T σ ρ) : Prop where
  run : Watch.Run cwd watcher h l.watch
  flying_iff (p : PassId) : p ∈ l.flying ↔ History.InFlight h p
  nodup : l.flying.Nodup

section Sound
variable {cwd : String} {watcher : Watcher} {h es : History ρ}

theorem Sound.step (hs : Sound cwd watcher h l) (step : Step h l.watch es l'.watch)
    (hes : ∀ p, History.InFlight (h ++ es) p ↔ History.InFlight h p)
    (hf : l'.flying.Perm l.flying) : Sound cwd watcher (h ++ es) l' where
  run := hs.run.next step
  flying_iff p := by rw [hf.mem_iff, hs.flying_iff, hes]
  nodup := hf.nodup_iff.mpr hs.nodup

theorem Sound.stay (hs : Sound cwd watcher h l) (hw : l'.watch = l.watch)
    (hf : l'.flying.Perm l.flying) : Sound cwd watcher h l' where
  run := hw ▸ hs.run
  flying_iff p := by rw [hf.mem_iff, hs.flying_iff]
  nodup := hf.nodup_iff.mpr hs.nodup

theorem Sound.launched (hs : Sound cwd watcher h l) {x : Pass}
    (step : Step h l.watch [.launched p x] l'.watch) (hp : p = l.watch.passes.length)
    (hf : l'.flying.Perm (p :: l.flying)) : Sound cwd watcher (h ++ [.launched p x]) l' := by
  have ho := hs.run.sound.ownership
  have hnew (y : Pass) : l.watch.passes[p]? ≠ some y := fun hy =>
    absurd (List.getElem?_eq_some_iff.mp hy).1 (Nat.not_lt.mpr hp.ge)
  have hrunning (r : Option ρ) : .ended p r ∉ h := by
    intro hr
    obtain ⟨y, hy⟩ := ho.launched_of_ended p r hr
    exact hnew y hy
  constructor
  · exact hs.run.next step
  · intro q
    rw [hf.mem_iff, List.mem_cons, hs.flying_iff, History.inFlight_launched]
    constructor
    · rintro (rfl | hq)
      · exact Or.inr ⟨rfl, hrunning⟩
      · exact Or.inl hq
    · rintro (hq | ⟨rfl, -⟩)
      · exact Or.inr hq
      · exact Or.inl rfl
  · rw [hf.nodup_iff, List.nodup_cons]
    refine ⟨fun hm => ?_, hs.nodup⟩
    obtain ⟨⟨y, hy⟩, -⟩ := (hs.flying_iff p).mp hm
    exact hnew y ((ho.launched_iff p y).mp hy)

theorem Sound.ended (hs : Sound cwd watcher h l) {result : Option ρ}
    (step : Step h l.watch [.ended p result] l'.watch) (hf : l.flying.Perm (p :: l'.flying)) :
    Sound cwd watcher (h ++ [.ended p result]) l' := by
  have hnodup := List.nodup_cons.mp (hf.nodup_iff.mp hs.nodup)
  constructor
  · exact hs.run.next step
  · intro q
    rw [History.inFlight_ended, ← hs.flying_iff, hf.mem_iff, List.mem_cons]
    constructor
    · intro hq
      exact ⟨Or.inr hq, fun he => hnodup.1 (he ▸ hq)⟩
    · rintro ⟨hq | hq, hne⟩
      · exact absurd hq hne
      · exact hq
  · exact hnodup.2

theorem Sound.accept (hs : Sound cwd watcher h l) {c : Callback}
    (hn : l.watch.notifications[n]? = some ⟨c, .arrived⟩) {now : T}
    (hw : l'.watch = (l.watch.accept n now).2) (hf : l'.flying.Perm l.flying) :
    ∃ es, Sound cwd watcher (h ++ es) l' := by
  obtain ⟨x, hx⟩ := hs.run.sound.booking.scheduled n c _ hn
  cases hd : State.isDue (l.watch.times.get? c.file) now x.debounce with
  | true =>
    refine ⟨[.accepted n c], hs.step ?_ (History.inFlight_accepted h n c) hf⟩
    rw [hw]
    exact .accept n now hn hx hd
  | false =>
    refine ⟨[], hs.step ?_ (fun p => by rw [List.append_nil]) hf⟩
    rw [hw]
    exact .drop n now hn hx hd

omit [Sub T] [LT T] [DecidableLT T] in
theorem launching_of_unclaimed {s : State T ρ} {c : Callback} {st : Stage ρ} {x : Scheduler T}
    (hn : s.notifications[n]? = some ⟨c, st⟩) (hst : st.isUnclaimed = true)
    (hx : s.schedulers[c.scheduler]? = some x) :
    s.launching (.notification n) =
      if x.isBusy || x.dirty.isEmpty then none else some c.scheduler := by
  cases st with
  | accepted | waiting => simp [State.launching, hn, hx]
  | arrived | owning p | finished r => cases hst

theorem Sound.proceed (hs : Sound cwd watcher h l) {c : Callback} {st : Stage ρ}
    (hn : l.watch.notifications[n]? = some ⟨c, st⟩) (hst : st.isUnclaimed = true) :
    ∃ es, Sound cwd watcher (h ++ es) (l.proceedJob e n) ∧
      Effect l (l.proceedJob e n) (l.watch.launching (.notification n)) := by
  obtain ⟨x, hx⟩ := hs.run.sound.booking.scheduled n c st hn
  have hw := proceedJob_watch e l n
  rw [launching_of_unclaimed hn hst hx]
  by_cases hb : (x.isBusy || x.dirty.isEmpty) = true
  · -- It waits, or its file has been taken care of.
    have hnone : (l.watch.proceed n).2.1 = none ∧
        (l.watch.proceed n).2.2.passes = l.watch.passes := by
      cases hbusy : x.isBusy with
      | true => simp [State.proceed_of_busy hn hx hbusy]
      | false =>
        have hd : x.dirty = [] := by simpa [hbusy] using hb
        simp [State.proceed_of_clean hn hx hbusy hd]
    have hf := List.Perm.of_eq (proceedJob_flying_of_none (e := e) hnone.1)
    rw [if_pos hb]
    refine ⟨[], hs.step ?_ (fun p => by rw [List.append_nil]) hf, .quiet ?_ hf.subperm⟩
    · rw [hw]
      exact .wait n hn hst hnone.1
    · rw [hw]
      exact hnone.2
  · have hidle : x.isBusy = false ∧ x.dirty ≠ [] := by simpa using hb
    have hp := State.proceed_of_dirty hn hx hidle.1 hidle.2
    have hpass : (l.watch.proceed n).2.1 = some l.watch.passes.length := by rw [hp]
    have hf := proceedJob_flying_of_some (e := e) hpass
    have hpasses : (l.proceedJob e n).watch.passes =
        l.watch.passes ++ [⟨c.scheduler, x.dirty, n⟩] := by
      rw [hw, hp]
      rfl
    rw [if_neg hb]
    refine ⟨[.launched _ ⟨c.scheduler, x.dirty, n⟩], hs.launched ?_ rfl hf, .launch _ hpasses hf⟩
    have hnew : (l.proceedJob e n).watch.passes[l.watch.passes.length]? =
        some ⟨c.scheduler, x.dirty, n⟩ := by
      rw [hpasses]
      exact List.getElem?_concat_length
    rw [hw] at hnew ⊢
    exact .launch n hn hst hpass hnew

theorem Sound.runNotification (hs : Sound cwd watcher h l) :
    ∃ es, Sound cwd watcher (h ++ es) (l.runNotification e n) ∧
      Effect l (l.runNotification e n) (l.watch.launching (.notification n)) := by
  have hstay : ∃ es, Sound cwd watcher (h ++ es) l ∧ Effect l l none :=
    ⟨[], by rwa [List.append_nil], .quiet rfl (List.Subperm.refl _)⟩
  unfold Loop.runNotification
  cases hn : l.watch.notifications[n]? with
  | none => simpa [State.launching, hn] using hstay
  | some x =>
    obtain ⟨c, st⟩ := x
    cases st with
    | arrived =>
      have hf := List.Perm.of_eq (acceptJob_flying e l n)
      have hw := acceptJob_watch e l n
      obtain ⟨es, hes⟩ := hs.accept hn hw hf
      have hquiet : Effect l (l.acceptJob e n) none := by
        refine .quiet ?_ hf.subperm
        rw [hw]
        exact l.watch.accept_passes n _
      exact ⟨es, hes, by simpa [State.launching, hn] using hquiet⟩
    | accepted => exact hs.proceed hn rfl
    | waiting => exact hs.proceed hn rfl
    | owning p => simpa [State.launching, hn] using hstay
    | finished r => simpa [State.launching, hn] using hstay

theorem Sound.runPass (hs : Sound cwd watcher h l) (he : e.NeverHolds)
    (hj : l.queue[i]? = some (.pass p)) :
    ∃ es, Sound cwd watcher (h ++ es) ((l.without i).runPass e p) ∧
      Effect l ((l.without i).runPass e p) none := by
  have hq := flying_without_pass hj
  have hin : History.InFlight h p := (hs.flying_iff p).mp (hq.mem_iff.mpr List.mem_cons_self)
  obtain ⟨x, hl⟩ := hin.1
  have hp : (l.without i).watch.passes[p]? = some x :=
    (hs.run.sound.ownership.launched_iff p x).mp hl
  rcases runPass_cases he hp with ⟨r, hw, hf⟩ | ⟨hw, hf⟩
  · refine ⟨[.ended p r], hs.ended ?_ (by rwa [hf]), .quiet ?_ ?_⟩
    · rw [hw]
      exact .finish hin r
    · rw [hw, State.endPass_of_pass hp]
      rfl
    · rw [hf]
      exact (List.subperm_cons_self).trans hq.symm.subperm
  · have hperm := hf.trans hq.symm
    exact ⟨[], by rw [List.append_nil]; exact hs.stay hw hperm,
      .quiet (by rw [hw]; rfl) hperm.subperm⟩

/-- Every turn is a step of the schedulers, or none. -/
theorem Sound.turn (hs : Sound cwd watcher h l) (he : e.NeverHolds) {j : Job}
    (hj : l.queue[i]? = some j) :
    ∃ es, Sound cwd watcher (h ++ es) (l.turn e i) ∧
      Effect l (l.turn e i) (l.watch.launching j) := by
  have ht : l.turn e i = (l.without i).runJob e j := by
    unfold Loop.turn
    rw [hj]
  rw [ht]
  cases j with
  | notification n =>
    have hq := flying_without_notification hj
    have hs' : Sound cwd watcher h (l.without i) := hs.stay rfl hq.symm
    obtain ⟨es, hes, heff⟩ := hs'.runNotification
    change Effect _ _ (l.watch.launching _) at heff
    refine ⟨es, hes, ?_⟩
    generalize l.watch.launching (.notification n) = k at heff ⊢
    cases heff with
    | quiet hp hf => exact .quiet hp (hf.trans hq.symm.subperm)
    | launch x hp hf => exact .launch x hp (hf.trans (hq.symm.cons _))
  | pass p => exact hs.runPass he hj

end Sound

end Loop

end TemplateHost.Watch
