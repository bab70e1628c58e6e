import TemplateHost.Watch.State

/-!
# Single turns of tasks

What one turn of a notification or a pass leaves of the state: which stages and schedulers change,
and to what.
-/
namespace TemplateHost.Watch.State
variable {T ρ : Type} (s : State T ρ)

@[simp] theorem setStage_schedulers (n : NotificationId) (st : Stage ρ) :
    (s.setStage n st).schedulers = s.schedulers := rfl

@[simp] theorem setStage_passes (n : NotificationId) (st : Stage ρ) :
    (s.setStage n st).passes = s.passes := rfl

@[simp] theorem modifyScheduler_notifications (k : SchedulerId) (f : Scheduler T → Scheduler T) :
    (s.modifyScheduler k f).notifications = s.notifications := rfl

@[simp] theorem modifyScheduler_passes (k : SchedulerId) (f : Scheduler T → Scheduler T) :
    (s.modifyScheduler k f).passes = s.passes := rfl

theorem setStage_self {n : NotificationId} {x : Notification ρ} (st : Stage ρ)
    (hn : s.notifications[n]? = some x) :
    (s.setStage n st).notifications[n]? = some ⟨x.callback, st⟩ := by
  simp [setStage, hn]

theorem setStage_ne {n m : NotificationId} (st : Stage ρ) (hm : m ≠ n) :
    (s.setStage n st).notifications[m]? = s.notifications[m]? := by
  simp [setStage, Ne.symm hm]

theorem modifyScheduler_self {k : SchedulerId} {x : Scheduler T}
    (f : Scheduler T → Scheduler T) (hk : s.schedulers[k]? = some x) :
    (s.modifyScheduler k f).schedulers[k]? = some (f x) := by
  simp [modifyScheduler, hk]

theorem modifyScheduler_ne {k j : SchedulerId} (f : Scheduler T → Scheduler T) (hj : j ≠ k) :
    (s.modifyScheduler k f).schedulers[j]? = s.schedulers[j]? := by
  simp [modifyScheduler, Ne.symm hj]

theorem exists_stage_of_setStage {n m : NotificationId} {st sd : Stage ρ} {d : Callback}
    (hm : (s.setStage n st).notifications[m]? = some ⟨d, sd⟩) :
    ∃ sd', s.notifications[m]? = some ⟨d, sd'⟩ := by
  by_cases hmn : m = n
  · subst m
    obtain ⟨⟨d', sd'⟩, hn, heq⟩ : ∃ x, s.notifications[n]? = some x ∧ { x with stage := st } =
        (⟨d, sd⟩ : Notification ρ) := by
      simpa [setStage] using hm
    obtain ⟨rfl, -⟩ := Notification.mk.inj heq
    exact ⟨sd', hn⟩
  · exact ⟨sd, (s.setStage_ne st hmn).symm.trans hm⟩

theorem exists_modifyScheduler {j : SchedulerId} (k : SchedulerId)
    (f : Scheduler T → Scheduler T) (hj : ∃ x, s.schedulers[j]? = some x) :
    ∃ x, (s.modifyScheduler k f).schedulers[j]? = some x := by
  obtain ⟨x, hx⟩ := hj
  by_cases hk : j = k
  · subst j
    exact ⟨_, s.modifyScheduler_self f hx⟩
  · exact ⟨x, (s.modifyScheduler_ne f hk).trans hx⟩

theorem watch_frame (k : SchedulerId) (now : T) (relative : String) :
    (s.watch k now relative).2.2.schedulers = s.schedulers ∧
    (s.watch k now relative).2.2.notifications = s.notifications ∧
    (s.watch k now relative).2.2.passes = s.passes := by
  unfold watch
  split
  · exact ⟨rfl, rfl, rfl⟩
  · dsimp only
    split
    · exact ⟨rfl, rfl, rfl⟩
    · split <;> exact ⟨rfl, rfl, rfl⟩

theorem proceed_frame (n : NotificationId) :
    (s.proceed n).2.2.watcher = s.watcher ∧
    (s.proceed n).2.2.schedulers.length = s.schedulers.length := by
  unfold proceed
  split
  · exact ⟨rfl, rfl⟩
  · split
    · exact ⟨rfl, rfl⟩
    · split
      · exact ⟨rfl, rfl⟩
      · split <;> simp [launch, modifyScheduler, setStage]

theorem endPass_frame (p : PassId) (result : Option ρ) :
    (s.endPass p result).watcher = s.watcher ∧
    (s.endPass p result).schedulers.length = s.schedulers.length := by
  unfold endPass
  split <;> simp [modifyScheduler, setStage]

variable {s} {n : NotificationId} {c : Callback} {st : Stage ρ} {x : Scheduler T}

section Accept
variable [Sub T] [LT T] [DecidableLT T] {now : T}

theorem accept_of_due (hn : s.notifications[n]? = some ⟨c, st⟩)
    (hx : s.schedulers[c.scheduler]? = some x)
    (hd : isDue (s.times.get? c.file) now x.debounce = true) :
    (s.accept n now).2 =
      { s.modifyScheduler c.scheduler fun x => x.markDirty c.relative with
        times := s.times.set c.file now }.setStage n .accepted := by
  simp [accept, hn, hx, hd, modifyScheduler]

theorem accept_of_not_due (hn : s.notifications[n]? = some ⟨c, st⟩)
    (hx : s.schedulers[c.scheduler]? = some x)
    (hd : isDue (s.times.get? c.file) now x.debounce = false) :
    (s.accept n now).2 = s.setStage n (.finished none) := by
  simp [accept, hn, hx, hd]

variable (s) in
theorem accept_passes (n : NotificationId) (now : T) : (s.accept n now).2.passes = s.passes := by
  unfold accept
  split
  · rfl
  · split
    · rfl
    · dsimp only
      split <;> rfl

end Accept

theorem proceed_of_busy (hn : s.notifications[n]? = some ⟨c, st⟩)
    (hx : s.schedulers[c.scheduler]? = some x) (hb : x.isBusy = true) :
    s.proceed n = ([], none, s.setStage n .waiting) := by
  simp [proceed, hn, hx, hb]

theorem proceed_of_clean (hn : s.notifications[n]? = some ⟨c, st⟩)
    (hx : s.schedulers[c.scheduler]? = some x) (hb : x.isBusy = false) (hd : x.dirty = []) :
    s.proceed n = ([], none, s.setStage n (.finished none)) := by
  simp [proceed, hn, hx, hb, hd]

theorem proceed_of_dirty (hn : s.notifications[n]? = some ⟨c, st⟩)
    (hx : s.schedulers[c.scheduler]? = some x) (hb : x.isBusy = false) (hd : x.dirty ≠ []) :
    s.proceed n =
      ([.recompiling x.dirty], some s.passes.length, s.launch n c.scheduler x.dirty) := by
  simp [proceed, hn, hx, hb, hd]

theorem endPass_of_pass {p : PassId} {y : Pass} (hp : s.passes[p]? = some y)
    (result : Option ρ) :
    s.endPass p result =
      (s.modifyScheduler y.scheduler fun x => { x with current := none }).setStage y.owner
        (.finished result) := by
  simp [endPass, hp]

end TemplateHost.Watch.State
