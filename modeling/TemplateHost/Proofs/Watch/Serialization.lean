import TemplateHost.Proofs.Sequence
import TemplateHost.Proofs.Watch.History
import TemplateHost.Proofs.Watch.Turns

/-!
# Serialized passes

Three invariants of every run, whatever the order of its steps. Ownership: each pass is awaited by
one notification, which gets its result. Booking: a scheduler's current pass is the one that it has
in flight, and its dirty files are the ones accepted since it last launched. Acceptance: whoever has
yet to claim dirty files was accepted. Together they say that passes of a scheduler exclude each
other, that no accepted change is lost or passed twice, and who returns what.
-/
namespace TemplateHost.Watch
variable {T ρ : Type}

/-- Passes and the notifications that await them. -/
structure Ownership (h : History ρ) (s : State T ρ) : Prop where
  launched_iff (p : PassId) (x : Pass) : .launched p x ∈ h ↔ s.passes[p]? = some x
  launched_of_ended (p : PassId) (r : Option ρ) : .ended p r ∈ h → ∃ x, s.passes[p]? = some x
  awaiting (p : PassId) (x : Pass) : s.passes[p]? = some x → (∀ r, .ended p r ∉ h) →
    ∃ c, s.notifications[x.owner]? = some ⟨c, .owning p⟩
  returned (p : PassId) (x : Pass) (r : Option ρ) : s.passes[p]? = some x → .ended p r ∈ h →
    ∃ c, s.notifications[x.owner]? = some ⟨c, .finished r⟩
  relieved (n : NotificationId) (c : Callback) (r : Option ρ) :
    s.notifications[n]? = some ⟨c, .finished r⟩ →
      (∀ (p : PassId) (x : Pass), s.passes[p]? = some x → x.owner ≠ n) → r = none
  owner_inj (p q : PassId) (x y : Pass) : s.passes[p]? = some x → s.passes[q]? = some y →
    x.owner = y.owner → p = q

/-- Schedulers and what they have to do. -/
structure Booking (h : History ρ) (s : State T ρ) : Prop where
  scheduled (n : NotificationId) (c : Callback) (st : Stage ρ) :
    s.notifications[n]? = some ⟨c, st⟩ → ∃ x, s.schedulers[c.scheduler]? = some x
  current_iff (k : SchedulerId) (y : Scheduler T) (p : PassId) : s.schedulers[k]? = some y →
    (y.current = some p ↔
      History.InFlight h p ∧ ∃ x : Pass, s.passes[p]? = some x ∧ x.scheduler = k)
  dirty_eq (k : SchedulerId) (y : Scheduler T) : s.schedulers[k]? = some y →
    y.dirty = History.changed h k
  unclaimed (k : SchedulerId) (y : Scheduler T) : s.schedulers[k]? = some y → y.dirty ≠ [] →
    ∃ (n : NotificationId) (c : Callback) (st : Stage ρ),
      s.notifications[n]? = some ⟨c, st⟩ ∧ c.scheduler = k ∧ st.isUnclaimed = true

/-- Changes that were accepted. -/
structure Acceptance (h : History ρ) (s : State T ρ) : Prop where
  begun (n : NotificationId) (c : Callback) : .accepted n c ∈ h →
    ∃ st, s.notifications[n]? = some ⟨c, st⟩ ∧ st ≠ .arrived
  of_unclaimed (n : NotificationId) (c : Callback) (st : Stage ρ) :
    s.notifications[n]? = some ⟨c, st⟩ → st.isUnclaimed = true → .accepted n c ∈ h
  of_owner (p : PassId) (x : Pass) : s.passes[p]? = some x →
    ∃ c, .accepted x.owner c ∈ h ∧ c.scheduler = x.scheduler

/-- Every pass takes exactly the files that were dirty when it was launched. -/
def Batched (h : History ρ) : Prop :=
  ∀ h₁ p x h₂, h = h₁ ++ .launched p x :: h₂ →
    x.files = History.changed h₁ x.scheduler ∧ x.files ≠ []

theorem State.getElem?_passes_launch {s : State T ρ} {n : NotificationId} {k : SchedulerId}
    {files : List String} {p : PassId} {x : Pass} : (s.launch n k files).passes[p]? = some x ↔
      s.passes[p]? = some x ∨ p = s.passes.length ∧ x = ⟨k, files, n⟩ :=
  Sequence.getElem?_concat_eq_some_iff

section Ownership
variable {h es : History ρ} {s t : State T ρ}

theorem Ownership.not_owner (ho : Ownership h s) {n : NotificationId} {c : Callback}
    {st : Stage ρ} (hn : s.notifications[n]? = some ⟨c, st⟩)
    (hst : st = .arrived ∨ st.isUnclaimed = true) :
    ∀ (p : PassId) (x : Pass), s.passes[p]? = some x → x.owner ≠ n := by
  intro p x hp he
  subst he
  by_cases hr : ∃ r, .ended p r ∈ h
  · obtain ⟨r, hr⟩ := hr
    obtain ⟨c', hc'⟩ := ho.returned p x r hp hr
    rw [hn] at hc'
    obtain ⟨rfl, rfl⟩ := Notification.mk.inj (Option.some.inj hc')
    rcases hst with hst | hst <;> cases hst
  · obtain ⟨c', hc'⟩ := ho.awaiting p x hp fun r hm => hr ⟨r, hm⟩
    rw [hn] at hc'
    obtain ⟨rfl, rfl⟩ := Notification.mk.inj (Option.some.inj hc')
    rcases hst with hst | hst <;> cases hst

theorem Ownership.report (ho : Ownership h s) {new : List (Notification ρ)}
    (hnew : ∀ x ∈ new, x.stage = .arrived) (hp : t.passes = s.passes)
    (ht : t.notifications = s.notifications ++ new) : Ownership h t where
  launched_iff p x := by rw [hp]; exact ho.launched_iff p x
  launched_of_ended p r hr := by rw [hp]; exact ho.launched_of_ended p r hr
  awaiting p x hx hr := by
    obtain ⟨c, hc⟩ := ho.awaiting p x (hp ▸ hx) hr
    exact ⟨c, by rw [ht, List.getElem?_append_left (List.getElem?_eq_some_iff.mp hc).1, hc]⟩
  returned p x r hx hr := by
    obtain ⟨c, hc⟩ := ho.returned p x r (hp ▸ hx) hr
    exact ⟨c, by rw [ht, List.getElem?_append_left (List.getElem?_eq_some_iff.mp hc).1, hc]⟩
  relieved n c r hn hx := by
    rw [ht] at hn
    rw [hp] at hx
    by_cases hl : n < s.notifications.length
    · rw [List.getElem?_append_left hl] at hn
      exact ho.relieved n c r hn hx
    · rw [List.getElem?_append_right (Nat.le_of_not_lt hl)] at hn
      exact absurd (hnew _ (List.mem_of_getElem? hn)) (by simp)
  owner_inj p q x y := by rw [hp]; exact ho.owner_inj p q x y

theorem Ownership.setStage (ho : Ownership h s) {n : NotificationId} {c : Callback}
    {st : Stage ρ} (st' : Stage ρ) (hn : s.notifications[n]? = some ⟨c, st⟩)
    (hst : st = .arrived ∨ st.isUnclaimed = true) (hr : ∀ r, st' = .finished r → r = none)
    (hes : ∀ e ∈ es, ∃ m d, e = .accepted m d) (hp : t.passes = s.passes)
    (ht : t.notifications = (s.setStage n st').notifications) : Ownership (h ++ es) t := by
  have hno := ho.not_owner hn hst
  have hmem (e : Event ρ) (he : ∀ m d, e ≠ .accepted m d) : e ∈ h ++ es ↔ e ∈ h := by
    constructor
    · intro hm
      rcases List.mem_append.mp hm with hm | hm
      · exact hm
      · obtain ⟨m, d, rfl⟩ := hes e hm
        exact absurd rfl (he m d)
    · exact List.mem_append_left _
  have hl (p : PassId) (x : Pass) := hmem (.launched p x) (by simp)
  have he (p : PassId) (r : Option ρ) := hmem (.ended p r) (by simp)
  constructor
  · intro p x
    rw [hl, hp]
    exact ho.launched_iff p x
  · intro p r hm
    rw [hp]
    exact ho.launched_of_ended p r ((he p r).mp hm)
  · intro p x hx hm
    rw [hp] at hx
    rw [ht, s.setStage_ne st' (hno p x hx)]
    exact ho.awaiting p x hx fun r hr => hm r ((he p r).mpr hr)
  · intro p x r hx hm
    rw [hp] at hx
    rw [ht, s.setStage_ne st' (hno p x hx)]
    exact ho.returned p x r hx ((he p r).mp hm)
  · intro m d r hm hx
    rw [hp] at hx
    rw [ht] at hm
    by_cases hmn : m = n
    · subst m
      rw [s.setStage_self st' hn] at hm
      exact hr r (Notification.mk.inj (Option.some.inj hm)).2
    · rw [s.setStage_ne st' hmn] at hm
      exact ho.relieved m d r hm hx
  · intro p q x y
    rw [hp]
    exact ho.owner_inj p q x y

theorem Ownership.not_ended (ho : Ownership h s) (r : Option ρ) : .ended s.passes.length r ∉ h := by
  intro hr
  obtain ⟨x, hx⟩ := ho.launched_of_ended _ r hr
  exact absurd (List.getElem?_eq_some_iff.mp hx).1 (Nat.lt_irrefl _)

theorem Ownership.inFlight_launch (ho : Ownership h s) (n : NotificationId) (k j : SchedulerId)
    (files : List String) (p : PassId) :
    (History.InFlight (h ++ [.launched s.passes.length ⟨k, files, n⟩]) p ∧
        ∃ x : Pass, (s.launch n k files).passes[p]? = some x ∧ x.scheduler = j) ↔
      (History.InFlight h p ∧ ∃ x : Pass, s.passes[p]? = some x ∧ x.scheduler = j) ∨
        p = s.passes.length ∧ k = j := by
  rw [History.inFlight_launched]
  constructor
  · rintro ⟨hp, x, hx, hj⟩
    rcases State.getElem?_passes_launch.mp hx with hx | ⟨rfl, rfl⟩
    · rcases hp with hp | ⟨rfl, -⟩
      · exact Or.inl ⟨hp, x, hx, hj⟩
      · exact absurd (List.getElem?_eq_some_iff.mp hx).1 (Nat.lt_irrefl _)
    · exact Or.inr ⟨rfl, hj⟩
  · rintro (⟨hp, x, hx, hj⟩ | ⟨rfl, rfl⟩)
    · exact ⟨Or.inl hp, x, State.getElem?_passes_launch.mpr (Or.inl hx), hj⟩
    · refine ⟨Or.inr ⟨rfl, ho.not_ended⟩, ⟨k, files, n⟩, ?_, rfl⟩
      exact State.getElem?_passes_launch.mpr (Or.inr ⟨rfl, rfl⟩)

theorem Ownership.launch (ho : Ownership h s) {n : NotificationId} {c : Callback} {st : Stage ρ}
    (hn : s.notifications[n]? = some ⟨c, st⟩) (hst : st.isUnclaimed = true) (k : SchedulerId)
    (files : List String) :
    Ownership (h ++ [.launched s.passes.length ⟨k, files, n⟩]) (s.launch n k files) := by
  have hno := ho.not_owner hn (Or.inr hst)
  have hself : (s.launch n k files).notifications[n]? = some ⟨c, .owning s.passes.length⟩ :=
    s.setStage_self _ hn
  have hne (m : NotificationId) (hm : m ≠ n) :
      (s.launch n k files).notifications[m]? = s.notifications[m]? := s.setStage_ne _ hm
  constructor
  · intro p x
    rw [State.getElem?_passes_launch, ← ho.launched_iff]
    simp
  · intro p r hr
    obtain ⟨x, hx⟩ := ho.launched_of_ended p r (by simpa using hr)
    exact ⟨x, State.getElem?_passes_launch.mpr (Or.inl hx)⟩
  · intro p x hp hr
    rcases State.getElem?_passes_launch.mp hp with hp | ⟨rfl, rfl⟩
    · rw [hne _ (hno p x hp)]
      exact ho.awaiting p x hp fun r hm => hr r (List.mem_append_left _ hm)
    · exact ⟨c, hself⟩
  · intro p x r hp hr
    have hr' : .ended p r ∈ h := by simpa using hr
    rcases State.getElem?_passes_launch.mp hp with hp | ⟨rfl, rfl⟩
    · rw [hne _ (hno p x hp)]
      exact ho.returned p x r hp hr'
    · exact absurd hr' (ho.not_ended r)
  · intro m d r hm hx
    have hmn : m ≠ n := fun he =>
      hx _ _ (State.getElem?_passes_launch.mpr (Or.inr ⟨rfl, rfl⟩)) he.symm
    rw [hne m hmn] at hm
    exact ho.relieved m d r hm fun p x hp => hx p x (State.getElem?_passes_launch.mpr (Or.inl hp))
  · intro p q x y hp hq he
    rcases State.getElem?_passes_launch.mp hp with hp | ⟨rfl, rfl⟩
    · rcases State.getElem?_passes_launch.mp hq with hq | ⟨rfl, rfl⟩
      · exact ho.owner_inj p q x y hp hq he
      · exact absurd he (hno p x hp)
    · rcases State.getElem?_passes_launch.mp hq with hq | ⟨rfl, rfl⟩
      · exact absurd he.symm (hno q y hq)
      · rfl

theorem Ownership.finish (ho : Ownership h s) {p : PassId} {x : Pass}
    (hp : s.passes[p]? = some x) (hf : ∀ r, .ended p r ∉ h) (result : Option ρ) :
    Ownership (h ++ [.ended p result]) (s.endPass p result) := by
  obtain ⟨c, hc⟩ := ho.awaiting p x hp hf
  have ht : (s.endPass p result).notifications =
      (s.setStage x.owner (.finished result)).notifications := by
    rw [State.endPass_of_pass hp]
    rfl
  have hps : (s.endPass p result).passes = s.passes := by
    rw [State.endPass_of_pass hp]
    rfl
  have hne (q : PassId) (y : Pass) (hq : s.passes[q]? = some y) (hqp : q ≠ p) :
      (s.endPass p result).notifications[y.owner]? = s.notifications[y.owner]? := by
    rw [ht]
    exact s.setStage_ne _ fun he => hqp (ho.owner_inj q p y x hq hp he)
  constructor
  · intro q y
    rw [hps, ← ho.launched_iff]
    simp
  · intro q r hr
    rw [hps]
    rcases List.mem_append.mp hr with hr | hr
    · exact ho.launched_of_ended q r hr
    · obtain ⟨rfl, -⟩ := Event.ended.inj (List.mem_singleton.mp hr)
      exact ⟨x, hp⟩
  · intro q y hq hr
    rw [hps] at hq
    have hqp : q ≠ p := fun he => hr result (by simp [he])
    rw [hne q y hq hqp]
    exact ho.awaiting q y hq fun r hm => hr r (List.mem_append_left _ hm)
  · intro q y r hq hr
    rw [hps] at hq
    by_cases hqp : q = p
    · subst q
      obtain rfl := Option.some.inj (hp.symm.trans hq)
      rcases List.mem_append.mp hr with hr | hr
      · exact absurd hr (hf r)
      · obtain ⟨-, rfl⟩ := Event.ended.inj (List.mem_singleton.mp hr)
        exact ⟨c, by rw [ht, s.setStage_self _ hc]⟩
    · rw [hne q y hq hqp]
      rcases List.mem_append.mp hr with hr | hr
      · exact ho.returned q y r hq hr
      · exact absurd (Event.ended.inj (List.mem_singleton.mp hr)).1 hqp
  · intro m d r hm hx
    rw [hps] at hx
    have hmx : m ≠ x.owner := fun he => hx p x hp he.symm
    rw [ht, s.setStage_ne _ hmx] at hm
    exact ho.relieved m d r hm hx
  · intro q q' y y'
    rw [hps]
    exact ho.owner_inj q q' y y'

end Ownership

section Booking
variable {h : History ρ} {s t : State T ρ}

theorem Booking.extend (hb : Booking h s) {idle : List (Scheduler T)}
    {new : List (Notification ρ)} (hidle : ∀ y ∈ idle, y.dirty = [] ∧ y.current = none)
    (hnew : ∀ x ∈ new, x.callback.scheduler < s.schedulers.length)
    (hacc : ∀ n c, .accepted n c ∈ h → c.scheduler < s.schedulers.length)
    (hps : ∀ (p : PassId) (x : Pass), s.passes[p]? = some x → x.scheduler < s.schedulers.length)
    (hp : t.passes = s.passes) (hs : t.schedulers = s.schedulers ++ idle)
    (ht : t.notifications = s.notifications ++ new) : Booking h t := by
  have hold (k : SchedulerId) (y : Scheduler T) (hy : t.schedulers[k]? = some y)
      (hk : k < s.schedulers.length) : s.schedulers[k]? = some y := by
    rwa [hs, List.getElem?_append_left hk] at hy
  have hfresh (k : SchedulerId) (y : Scheduler T) (hy : t.schedulers[k]? = some y)
      (hk : ¬ k < s.schedulers.length) : y.dirty = [] ∧ y.current = none := by
    rw [hs, List.getElem?_append_right (Nat.le_of_not_lt hk)] at hy
    exact hidle y (List.mem_of_getElem? hy)
  constructor
  · intro n c st hn
    have hc : c.scheduler < s.schedulers.length := by
      rw [ht] at hn
      by_cases hl : n < s.notifications.length
      · rw [List.getElem?_append_left hl] at hn
        obtain ⟨x, hx⟩ := hb.scheduled n c st hn
        exact (List.getElem?_eq_some_iff.mp hx).1
      · rw [List.getElem?_append_right (Nat.le_of_not_lt hl)] at hn
        exact hnew _ (List.mem_of_getElem? hn)
    rw [hs, List.getElem?_append_left hc]
    exact ⟨_, List.getElem?_eq_getElem hc⟩
  · intro k y p hy
    rw [hp]
    by_cases hk : k < s.schedulers.length
    · exact hb.current_iff k y p (hold k y hy hk)
    · rw [(hfresh k y hy hk).2]
      constructor
      · intro hc
        cases hc
      · rintro ⟨-, x, hx, rfl⟩
        exact absurd (hps p x hx) hk
  · intro k y hy
    by_cases hk : k < s.schedulers.length
    · exact hb.dirty_eq k y (hold k y hy hk)
    · rw [(hfresh k y hy hk).1, History.changed_eq_nil]
      rintro n c hc rfl
      exact hk (hacc n c hc)
  · intro k y hy hd
    by_cases hk : k < s.schedulers.length
    · obtain ⟨n, c, st, hn, hc⟩ := hb.unclaimed k y (hold k y hy hk) hd
      refine ⟨n, c, st, ?_, hc⟩
      rw [ht, List.getElem?_append_left (List.getElem?_eq_some_iff.mp hn).1, hn]
    · exact absurd (hfresh k y hy hk).1 hd

/-- A notification goes on to another stage while all schedulers stay as they are. If it gives up
what it has yet to claim, nothing is dirty. -/
theorem Booking.setStage (hb : Booking h s) {n : NotificationId} {c : Callback} {st : Stage ρ}
    {x : Scheduler T} (hn : s.notifications[n]? = some ⟨c, st⟩)
    (hx : s.schedulers[c.scheduler]? = some x) {st' : Stage ρ}
    (hst : st.isUnclaimed = true → st'.isUnclaimed = true ∨ x.dirty = []) :
    Booking h (s.setStage n st') := by
  constructor
  · intro m d sd hm
    by_cases hmn : m = n
    · subst m
      rw [s.setStage_self _ hn] at hm
      obtain ⟨rfl, -⟩ := Notification.mk.inj (Option.some.inj hm)
      exact ⟨x, hx⟩
    · rw [s.setStage_ne _ hmn] at hm
      exact hb.scheduled m d sd hm
  · exact hb.current_iff
  · exact hb.dirty_eq
  · intro k y hy hd
    obtain ⟨m, d, sd, hm, rfl, hsd⟩ := hb.unclaimed k y hy hd
    by_cases hmn : m = n
    · subst m
      obtain ⟨rfl, rfl⟩ := Notification.mk.inj (Option.some.inj (hn.symm.trans hm))
      refine ⟨n, c, st', s.setStage_self _ hn, rfl, (hst hsd).resolve_right ?_⟩
      rwa [Option.some.inj (hx.symm.trans hy)]
    · exact ⟨m, d, sd, by rwa [s.setStage_ne _ hmn], rfl, hsd⟩

theorem markDirty_dirty (x : Scheduler T) (file : String) :
    (x.markDirty file).dirty = if file ∈ x.dirty then x.dirty else x.dirty ++ [file] := by
  unfold Scheduler.markDirty
  by_cases hf : file ∈ x.dirty <;> simp [hf]

theorem markDirty_current (x : Scheduler T) (file : String) :
    (x.markDirty file).current = x.current := by
  unfold Scheduler.markDirty
  split <;> rfl

/-- A step of one task changes one scheduler at most, and goes on to another stage; every
notification still has its scheduler. -/
theorem Booking.exists_scheduler (hb : Booking h s) {n m : NotificationId} {st sd : Stage ρ}
    {k : SchedulerId} {f : Scheduler T → Scheduler T} {d : Callback}
    (hs : t.schedulers = (s.modifyScheduler k f).schedulers)
    (ht : t.notifications = (s.setStage n st).notifications)
    (hm : t.notifications[m]? = some ⟨d, sd⟩) : ∃ y, t.schedulers[d.scheduler]? = some y := by
  rw [ht] at hm
  obtain ⟨sd', hm'⟩ := s.exists_stage_of_setStage hm
  rw [hs]
  exact s.exists_modifyScheduler k f (hb.scheduled m d sd' hm')

/-- Whoever has yet to claim what is dirty for a scheduler is still there after a step of a
notification that is not among them. -/
theorem Booking.exists_unclaimed (hb : Booking h s) {n : NotificationId} {c : Callback}
    {st st' : Stage ρ} (hn : s.notifications[n]? = some ⟨c, st⟩)
    (ht : t.notifications = (s.setStage n st').notifications) {k : SchedulerId} {y : Scheduler T}
    (hy : s.schedulers[k]? = some y) (hd : y.dirty ≠ [])
    (hother : st.isUnclaimed = true → c.scheduler ≠ k) :
    ∃ (m : NotificationId) (d : Callback) (sd : Stage ρ),
      t.notifications[m]? = some ⟨d, sd⟩ ∧ d.scheduler = k ∧ sd.isUnclaimed = true := by
  obtain ⟨m, d, sd, hm, hk, hsd⟩ := hb.unclaimed k y hy hd
  have hmn : m ≠ n := by
    rintro rfl
    obtain ⟨rfl, rfl⟩ := Notification.mk.inj (Option.some.inj (hn.symm.trans hm))
    exact hother hsd hk
  exact ⟨m, d, sd, by rw [ht, s.setStage_ne _ hmn, hm], hk, hsd⟩

theorem Booking.accept (hb : Booking h s) {n : NotificationId} {c : Callback} {x : Scheduler T}
    (hn : s.notifications[n]? = some ⟨c, .arrived⟩)
    (hx : s.schedulers[c.scheduler]? = some x) (hp : t.passes = s.passes)
    (hs : t.schedulers =
      (s.modifyScheduler c.scheduler fun x => x.markDirty c.relative).schedulers)
    (ht : t.notifications = (s.setStage n .accepted).notifications) :
    Booking (h ++ [.accepted n c]) t := by
  have hself : t.schedulers[c.scheduler]? = some (x.markDirty c.relative) := by
    rw [hs, s.modifyScheduler_self _ hx]
  have hne (k : SchedulerId) (hk : k ≠ c.scheduler) :
      t.schedulers[k]? = s.schedulers[k]? := by rw [hs, s.modifyScheduler_ne _ hk]
  constructor
  · exact fun m d sd hm => hb.exists_scheduler hs ht hm
  · intro k y p hy
    rw [hp, History.inFlight_accepted]
    by_cases hk : k = c.scheduler
    · subst k
      obtain rfl := Option.some.inj (hself.symm.trans hy)
      rw [markDirty_current]
      exact hb.current_iff _ x p hx
    · rw [hne k hk] at hy
      exact hb.current_iff k y p hy
  · intro k y hy
    by_cases hk : k = c.scheduler
    · subst k
      obtain rfl := Option.some.inj (hself.symm.trans hy)
      rw [markDirty_dirty, History.changed_accepted, hb.dirty_eq _ x hx]
    · rw [hne k hk] at hy
      rw [History.changed_accepted_of_ne _ _ (Ne.symm hk)]
      exact hb.dirty_eq k y hy
  · intro k y hy hd
    by_cases hk : k = c.scheduler
    · exact ⟨n, c, .accepted, by rw [ht, s.setStage_self _ hn], hk.symm, rfl⟩
    · rw [hne k hk] at hy
      refine hb.exists_unclaimed hn ht hy hd fun hunclaimed => ?_
      cases hunclaimed

theorem Booking.launch (hb : Booking h s) (ho : Ownership h s) {n : NotificationId}
    {c : Callback} {st : Stage ρ} {x : Scheduler T} (hn : s.notifications[n]? = some ⟨c, st⟩)
    (hx : s.schedulers[c.scheduler]? = some x) (hidle : x.isBusy = false) :
    Booking (h ++ [.launched s.passes.length ⟨c.scheduler, x.dirty, n⟩])
      (s.launch n c.scheduler x.dirty) := by
  have hself : (s.launch n c.scheduler x.dirty).schedulers[c.scheduler]? =
      some { x with dirty := [], current := some s.passes.length } := s.modifyScheduler_self _ hx
  have hne (k : SchedulerId) (hk : k ≠ c.scheduler) :
      (s.launch n c.scheduler x.dirty).schedulers[k]? = s.schedulers[k]? :=
    s.modifyScheduler_ne _ hk
  have hnone : x.current = none := by simpa [Scheduler.isBusy] using hidle
  constructor
  · exact fun m d sd hm => hb.exists_scheduler rfl rfl hm
  · intro k y p hy
    rw [ho.inFlight_launch]
    by_cases hk : k = c.scheduler
    · subst k
      obtain rfl := Option.some.inj (hself.symm.trans hy)
      rw [← hb.current_iff _ x p hx, hnone]
      simp [eq_comm]
    · rw [hne k hk] at hy
      rw [hb.current_iff k y p hy]
      exact (or_iff_left fun hnew => hk hnew.2.symm).symm
  · intro k y hy
    rw [History.changed_launched]
    by_cases hk : k = c.scheduler
    · subst k
      obtain rfl := Option.some.inj (hself.symm.trans hy)
      rw [if_pos rfl]
    · rw [hne k hk] at hy
      rw [if_neg (Ne.symm hk)]
      exact hb.dirty_eq k y hy
  · intro k y hy hd
    by_cases hk : k = c.scheduler
    · subst k
      obtain rfl := Option.some.inj (hself.symm.trans hy)
      exact absurd rfl hd
    · rw [hne k hk] at hy
      exact hb.exists_unclaimed hn rfl hy hd fun _ => Ne.symm hk

theorem Booking.finish (hb : Booking h s) (ho : Ownership h s) {p : PassId} {x : Pass}
    (hp : s.passes[p]? = some x) (hf : ∀ r, .ended p r ∉ h) (result : Option ρ) :
    Booking (h ++ [.ended p result]) (s.endPass p result) := by
  obtain ⟨c, hc⟩ := ho.awaiting p x hp hf
  have hflight : History.InFlight h p := ⟨⟨x, (ho.launched_iff p x).mpr hp⟩, hf⟩
  rw [State.endPass_of_pass hp]
  have hold (k : SchedulerId) (y : Scheduler T)
      (hy : (s.modifyScheduler x.scheduler fun y => { y with current := none }).schedulers[k]? =
        some y) :
      ∃ z, s.schedulers[k]? = some z ∧ y.dirty = z.dirty ∧
        (k = x.scheduler ∧ y.current = none ∨ k ≠ x.scheduler ∧ y.current = z.current) := by
    by_cases hk : k = x.scheduler
    · subst k
      obtain ⟨z, hz, rfl⟩ : ∃ z, s.schedulers[x.scheduler]? = some z ∧
          { z with current := none } = y := by
        simpa [State.modifyScheduler] using hy
      exact ⟨z, hz, rfl, Or.inl ⟨rfl, rfl⟩⟩
    · rw [s.modifyScheduler_ne _ hk] at hy
      exact ⟨y, hy, rfl, Or.inr ⟨hk, rfl⟩⟩
  constructor
  · exact fun m d sd hm => hb.exists_scheduler rfl rfl hm
  · intro k y q hy
    obtain ⟨z, hz, -, ⟨rfl, hy'⟩ | ⟨hk, hy'⟩⟩ := hold k y hy
    · rw [hy', History.inFlight_ended]
      constructor
      · intro hq
        cases hq
      · rintro ⟨⟨hq, hqp⟩, w, hw, hwk⟩
        have h₁ := (hb.current_iff _ z q hz).mpr ⟨hq, w, hw, hwk⟩
        have h₂ := (hb.current_iff _ z p hz).mpr ⟨hflight, x, hp, rfl⟩
        exact absurd (Option.some.inj (h₁.symm.trans h₂)) hqp
    · rw [hy', hb.current_iff k z q hz, History.inFlight_ended]
      constructor
      · rintro ⟨hq, w, hw, rfl⟩
        refine ⟨⟨hq, ?_⟩, w, hw, rfl⟩
        rintro rfl
        exact hk (congrArg Pass.scheduler (Option.some.inj (hw.symm.trans hp)))
      · rintro ⟨⟨hq, -⟩, hw⟩
        exact ⟨hq, hw⟩
  · intro k y hy
    obtain ⟨z, hz, hyz, -⟩ := hold k y hy
    rw [hyz, History.changed_ended]
    exact hb.dirty_eq k z hz
  · intro k y hy hd
    obtain ⟨z, hz, hyz, -⟩ := hold k y hy
    refine hb.exists_unclaimed hc rfl hz (hyz ▸ hd) fun hunclaimed => ?_
    cases hunclaimed

end Booking

section Acceptance
variable {h : History ρ} {s t : State T ρ}

theorem Acceptance.report (ha : Acceptance h s) {new : List (Notification ρ)}
    (hnew : ∀ x ∈ new, x.stage = .arrived) (hp : t.passes = s.passes)
    (ht : t.notifications = s.notifications ++ new) : Acceptance h t := by
  constructor
  · intro n c hc
    obtain ⟨st, hn, hst⟩ := ha.begun n c hc
    refine ⟨st, ?_, hst⟩
    rw [ht, List.getElem?_append_left (List.getElem?_eq_some_iff.mp hn).1, hn]
  · intro n c st hn hst
    rw [ht] at hn
    by_cases hl : n < s.notifications.length
    · rw [List.getElem?_append_left hl] at hn
      exact ha.of_unclaimed n c st hn hst
    · rw [List.getElem?_append_right (Nat.le_of_not_lt hl)] at hn
      obtain rfl : st = .arrived := hnew _ (List.mem_of_getElem? hn)
      cases hst
  · intro p x
    rw [hp]
    exact ha.of_owner p x

theorem Acceptance.setStage {es : History ρ} (ha : Acceptance h s) {n : NotificationId}
    {c : Callback} {st : Stage ρ} (st' : Stage ρ) (hn : s.notifications[n]? = some ⟨c, st⟩)
    (hst : st' ≠ .arrived) (hun : st'.isUnclaimed = true → .accepted n c ∈ h ++ es)
    (hes : ∀ m d, .accepted m d ∈ es → m = n ∧ d = c)
    (hp : ∀ (p : PassId) (x : Pass), t.passes[p]? = some x → s.passes[p]? = some x ∨
      x.owner = n ∧ x.scheduler = c.scheduler ∧ .accepted n c ∈ h)
    (ht : t.notifications = (s.setStage n st').notifications) : Acceptance (h ++ es) t := by
  have hself : t.notifications[n]? = some ⟨c, st'⟩ := by rw [ht, s.setStage_self _ hn]
  have hne (m : NotificationId) (hm : m ≠ n) :
      t.notifications[m]? = s.notifications[m]? := by rw [ht, s.setStage_ne _ hm]
  constructor
  · intro m d hm
    rcases List.mem_append.mp hm with hm | hm
    · obtain ⟨sd, hd, hsd⟩ := ha.begun m d hm
      by_cases hmn : m = n
      · subst m
        obtain ⟨rfl, -⟩ := Notification.mk.inj (Option.some.inj (hn.symm.trans hd))
        exact ⟨st', hself, hst⟩
      · exact ⟨sd, by rw [hne m hmn, hd], hsd⟩
    · obtain ⟨rfl, rfl⟩ := hes m d hm
      exact ⟨st', hself, hst⟩
  · intro m d sd hm hsd
    by_cases hmn : m = n
    · subst m
      obtain ⟨rfl, rfl⟩ := Notification.mk.inj (Option.some.inj (hself.symm.trans hm))
      exact hun hsd
    · rw [hne m hmn] at hm
      exact List.mem_append_left _ (ha.of_unclaimed m d sd hm hsd)
  · intro p x hx
    rcases hp p x hx with hx | ⟨rfl, hk, hc⟩
    · obtain ⟨d, hd, hk⟩ := ha.of_owner p x hx
      exact ⟨d, List.mem_append_left _ hd, hk⟩
    · exact ⟨c, List.mem_append_left _ hc, hk.symm⟩

end Acceptance

theorem Batched.concat {h : History ρ} (hb : Batched h) (e : Event ρ)
    (he : ∀ p x, e = .launched p x → x.files = History.changed h x.scheduler ∧ x.files ≠ []) :
    Batched (h ++ [e]) := by
  intro h₁ p x h₂ heq
  rcases Sequence.split_concat heq with ⟨rest, hh, -⟩ | ⟨rfl, hx, -⟩
  · exact hb h₁ p x rest hh
  · exact he p x hx.symm

structure Sound (h : History ρ) (s : State T ρ) : Prop where
  ownership : Ownership h s
  booking : Booking h s
  acceptance : Acceptance h s
  batched : Batched h

section Sound
variable {h es : History ρ} {s t : State T ρ}

theorem Sound.accepted_lt (hs : Sound h s) (n : NotificationId) (c : Callback)
    (hc : .accepted n c ∈ h) : c.scheduler < s.schedulers.length := by
  obtain ⟨st, hn, -⟩ := hs.acceptance.begun n c hc
  obtain ⟨x, hx⟩ := hs.booking.scheduled n c st hn
  exact (List.getElem?_eq_some_iff.mp hx).1

theorem Sound.pass_lt (hs : Sound h s) (p : PassId) (x : Pass) (hp : s.passes[p]? = some x) :
    x.scheduler < s.schedulers.length := by
  obtain ⟨c, hc, hk⟩ := hs.acceptance.of_owner p x hp
  exact hk ▸ hs.accepted_lt x.owner c hc

theorem Sound.extend (hs : Sound h s) (idle : List (Scheduler T)) (new : List (Notification ρ))
    (hidle : ∀ y ∈ idle, y.dirty = [] ∧ y.current = none)
    (hnew : ∀ x ∈ new, x.stage = .arrived ∧ x.callback.scheduler < s.schedulers.length)
    (hp : t.passes = s.passes) (hsch : t.schedulers = s.schedulers ++ idle)
    (ht : t.notifications = s.notifications ++ new) : Sound h t where
  ownership := hs.ownership.report (fun x hx => (hnew x hx).1) hp ht
  booking :=
    hs.booking.extend hidle (fun x hx => (hnew x hx).2) hs.accepted_lt hs.pass_lt hp hsch ht
  acceptance := hs.acceptance.report (fun x hx => (hnew x hx).1) hp ht
  batched := hs.batched

theorem Sound.setStage (hs : Sound h s) {n : NotificationId} {c : Callback} {st st' : Stage ρ}
    {x : Scheduler T} (hn : s.notifications[n]? = some ⟨c, st⟩)
    (hx : s.schedulers[c.scheduler]? = some x) (hst : st = .arrived ∨ st.isUnclaimed = true)
    (hst' : st' = .waiting ∧ st.isUnclaimed = true ∨
      st' = .finished none ∧ (st.isUnclaimed = true → x.dirty = [])) :
    Sound h (s.setStage n st') := by
  have hr (r : Option ρ) (he : st' = .finished r) : r = none := by
    rcases hst' with ⟨rfl, -⟩ | ⟨rfl, -⟩
    · cases he
    · exact (Stage.finished.inj he).symm
  have hun (hu : st'.isUnclaimed = true) : .accepted n c ∈ h ++ [] := by
    rcases hst' with ⟨rfl, hst'⟩ | ⟨rfl, -⟩
    · rw [List.append_nil]
      exact hs.acceptance.of_unclaimed n c st hn hst'
    · cases hu
  have ho : Ownership (h ++ []) (s.setStage n st') :=
    hs.ownership.setStage st' hn hst hr (fun _ he => absurd he List.not_mem_nil) rfl rfl
  have ha : Acceptance (h ++ []) (s.setStage n st') :=
    hs.acceptance.setStage st' hn (by rcases hst' with ⟨rfl, -⟩ | ⟨rfl, -⟩ <;> exact nofun) hun
      (fun _ _ he => absurd he List.not_mem_nil) (fun _ _ hp => Or.inl hp) rfl
  rw [List.append_nil] at ho ha
  refine ⟨ho, hs.booking.setStage hn hx fun hu => ?_, ha, hs.batched⟩
  rcases hst' with ⟨rfl, -⟩ | ⟨-, hd⟩
  · exact Or.inl rfl
  · exact Or.inr (hd hu)

theorem Sound.accept [Sub T] [LT T] [DecidableLT T] (hs : Sound h s) {n : NotificationId}
    {c : Callback} {x : Scheduler T} {now : T} (hn : s.notifications[n]? = some ⟨c, .arrived⟩)
    (hx : s.schedulers[c.scheduler]? = some x)
    (hd : State.isDue (s.times.get? c.file) now x.debounce = true) :
    Sound (h ++ [.accepted n c]) (s.accept n now).2 := by
  rw [State.accept_of_due hn hx hd]
  refine ⟨hs.ownership.setStage .accepted hn (Or.inl rfl) nofun ?_ rfl rfl,
    hs.booking.accept hn hx rfl rfl rfl,
    hs.acceptance.setStage .accepted hn nofun (fun _ => by simp) ?_ (fun _ _ hp => Or.inl hp) rfl,
    hs.batched.concat _ nofun⟩
  · intro e he
    exact ⟨n, c, List.mem_singleton.mp he⟩
  · intro m d he
    exact Event.accepted.inj (List.mem_singleton.mp he)

theorem Sound.wait (hs : Sound h s) {n : NotificationId} {c : Callback} {st : Stage ρ}
    (hn : s.notifications[n]? = some ⟨c, st⟩) (hst : st.isUnclaimed = true)
    (hp : (s.proceed n).2.1 = none) : Sound h (s.proceed n).2.2 := by
  obtain ⟨x, hx⟩ := hs.booking.scheduled n c st hn
  cases hb : x.isBusy with
  | true =>
    rw [State.proceed_of_busy hn hx hb]
    exact hs.setStage hn hx (Or.inr hst) (Or.inl ⟨rfl, hst⟩)
  | false =>
    by_cases hd : x.dirty = []
    · rw [State.proceed_of_clean hn hx hb hd]
      exact hs.setStage hn hx (Or.inr hst) (Or.inr ⟨rfl, fun _ => hd⟩)
    · rw [State.proceed_of_dirty hn hx hb hd] at hp
      cases hp

theorem Sound.launch (hs : Sound h s) {n : NotificationId} {c : Callback} {st : Stage ρ}
    {p : PassId} {y : Pass} (hn : s.notifications[n]? = some ⟨c, st⟩)
    (hst : st.isUnclaimed = true) (hp : (s.proceed n).2.1 = some p)
    (hy : (s.proceed n).2.2.passes[p]? = some y) :
    Sound (h ++ [.launched p y]) (s.proceed n).2.2 := by
  obtain ⟨x, hx⟩ := hs.booking.scheduled n c st hn
  cases hb : x.isBusy with
  | true =>
    rw [State.proceed_of_busy hn hx hb] at hp
    cases hp
  | false =>
    by_cases hd : x.dirty = []
    · rw [State.proceed_of_clean hn hx hb hd] at hp
      cases hp
    · rw [State.proceed_of_dirty hn hx hb hd] at hp hy ⊢
      obtain rfl := Option.some.inj hp
      obtain rfl : ⟨c.scheduler, x.dirty, n⟩ = y := by simpa [State.launch] using hy
      have hc := hs.acceptance.of_unclaimed n c st hn hst
      refine ⟨hs.ownership.launch hn hst _ _, hs.booking.launch hs.ownership hn hx hb,
        hs.acceptance.setStage (.owning _) hn ?_ ?_ ?_ ?_ rfl, hs.batched.concat _ ?_⟩
      · intro he
        cases he
      · intro he
        cases he
      · intro m d he
        cases List.mem_singleton.mp he
      · intro q z hq
        rcases (Sequence.getElem?_concat_eq_some_iff ..).mp hq with hq | ⟨-, rfl⟩
        · exact Or.inl hq
        · exact Or.inr ⟨rfl, rfl, hc⟩
      · rintro q z ⟨⟩
        exact ⟨hs.booking.dirty_eq _ x hx, hd⟩

theorem Sound.finish (hs : Sound h s) {p : PassId} (hp : History.InFlight h p)
    (result : Option ρ) : Sound (h ++ [.ended p result]) (s.endPass p result) := by
  obtain ⟨⟨x, hl⟩, hf⟩ := hp
  have hx := (hs.ownership.launched_iff p x).mp hl
  obtain ⟨c, hc⟩ := hs.ownership.awaiting p x hx hf
  refine ⟨hs.ownership.finish hx hf result, hs.booking.finish hs.ownership hx hf result, ?_,
    hs.batched.concat _ nofun⟩
  refine hs.acceptance.setStage (.finished result) hc nofun nofun ?_ ?_ ?_
  · intro m d he
    cases List.mem_singleton.mp he
  · intro q z hq
    rw [State.endPass_of_pass hx] at hq
    exact Or.inl hq
  · rw [State.endPass_of_pass hx]
    rfl

variable [Sub T] [LT T] [DecidableLT T]

theorem Sound.step (hs : Sound h s) (step : Step h s es t) : Sound (h ++ es) t := by
  cases step with
  | enlist inputDir debounce =>
    rw [List.append_nil]
    exact hs.extend [.new inputDir debounce] []
      (fun y hy => by rw [List.mem_singleton.mp hy]; exact ⟨rfl, rfl⟩)
      (fun _ hx => absurd hx List.not_mem_nil) rfl rfl (List.append_nil _).symm
  | register k now relative =>
    obtain ⟨hsch, hn, hp⟩ := s.watch_frame k now relative
    rw [List.append_nil]
    exact hs.extend [] [] (fun _ hy => absurd hy List.not_mem_nil)
      (fun _ hx => absurd hx List.not_mem_nil) hp (by rw [hsch, List.append_nil])
      (by rw [hn, List.append_nil])
  | close =>
    rw [List.append_nil]
    exact hs.extend [] [] (fun _ hy => absurd hy List.not_mem_nil)
      (fun _ hx => absurd hx List.not_mem_nil) rfl (List.append_nil _).symm
      (List.append_nil _).symm
  | report c hc =>
    rw [List.append_nil]
    exact hs.extend [] [⟨c, .arrived⟩]
      (fun _ hy => absurd hy List.not_mem_nil)
      (fun x hx => by rw [List.mem_singleton.mp hx]; exact ⟨rfl, hc⟩) rfl
      (List.append_nil _).symm rfl
  | accept n now hn hx hd => exact hs.accept hn hx hd
  | drop n now hn hx hd =>
    rw [List.append_nil, State.accept_of_not_due hn hx hd]
    exact hs.setStage hn hx (Or.inl rfl) (Or.inr ⟨rfl, nofun⟩)
  | wait n hn hst hp =>
    rw [List.append_nil]
    exact hs.wait hn hst hp
  | launch n hn hst hp hx => exact hs.launch hn hst hp hx
  | finish hp result => exact hs.finish hp result

theorem Run.sound {cwd : String} {watcher : Watcher} (run : Run cwd watcher h s) : Sound h s := by
  induction run with
  | start => exact ⟨⟨by simp [State.new], by simp, by simp [State.new], by simp [State.new],
      by simp [State.new], by simp [State.new]⟩, ⟨by simp [State.new], by simp [State.new],
      by simp [State.new], by simp [State.new]⟩, ⟨by simp, by simp [State.new],
      by simp [State.new]⟩, by simp [Batched]⟩
  | next _ step ih => exact ih.step step

end Sound

/-- What every run keeps of a scheduler `k`. -/
structure Serialized (h : History ρ) (s : State T ρ) (k : SchedulerId) : Prop where
  /-- No two of its passes are in flight together. -/
  exclusive (p q : PassId) (x y : Pass) : .launched p x ∈ h → .launched q y ∈ h →
    x.scheduler = k → y.scheduler = k → History.InFlight h p → History.InFlight h q → p = q
  /-- A pass takes what was accepted since the launch before, in order of first acceptance. -/
  batch (h₁ h₂ : History ρ) (p : PassId) (x : Pass) : h = h₁ ++ .launched p x :: h₂ →
    x.scheduler = k → x.files ≠ [] ∧ x.files.Nodup ∧ x.files = History.changed h₁ k
  /-- An accepted change is in a later pass, or dirty with someone yet to claim it. -/
  kept (h₁ h₂ : History ρ) (n : NotificationId) (c : Callback) :
    h = h₁ ++ .accepted n c :: h₂ → c.scheduler = k →
      (∃ (p : PassId) (x : Pass), .launched p x ∈ h₂ ∧ x.scheduler = k ∧ c.relative ∈ x.files) ∨
      ∃ y, s.schedulers[k]? = some y ∧ c.relative ∈ y.dirty ∧
        ∃ (m : NotificationId) (d : Callback) (st : Stage ρ),
          s.notifications[m]? = some ⟨d, st⟩ ∧ d.scheduler = k ∧ st.isUnclaimed = true
  /-- Where nobody has anything to claim, nothing is dirty. -/
  settled (y : Scheduler T) : s.schedulers[k]? = some y →
    (∀ (m : NotificationId) (d : Callback) (st : Stage ρ),
      s.notifications[m]? = some ⟨d, st⟩ → d.scheduler = k → st.isUnclaimed = false) →
    y.dirty = []
  /-- The result of a pass is returned by exactly one accepted notification. -/
  result (p : PassId) (x : Pass) (r : Option ρ) : .launched p x ∈ h → x.scheduler = k →
    .ended p r ∈ h → ∃! n, (∃ z, .launched p z ∈ h ∧ z.owner = n) ∧
      ∃ c, .accepted n c ∈ h ∧ c.scheduler = k ∧ s.notifications[n]? = some ⟨c, .finished r⟩
  /-- A notification returns the result of one pass at most. -/
  single (p q : PassId) (x y : Pass) : .launched p x ∈ h → .launched q y ∈ h →
    x.owner = y.owner → p = q
  /-- All other accepted notifications return nothing. -/
  others (n : NotificationId) (c : Callback) (r : Option ρ) : .accepted n c ∈ h →
    s.notifications[n]? = some ⟨c, .finished r⟩ →
      (∀ (p : PassId) (x : Pass), .launched p x ∈ h → x.owner ≠ n) → r = none

section Serialized
variable {h : History ρ} {s : State T ρ}

theorem exists_first_launch (k : SchedulerId) (h : History ρ)
    (hl : ∃ p x, .launched p x ∈ h ∧ x.scheduler = k) :
    ∃ h₁ p x h₂, h = h₁ ++ .launched p x :: h₂ ∧ x.scheduler = k ∧
      ∀ q y, .launched q y ∈ h₁ → y.scheduler ≠ k := by
  induction h with
  | nil =>
    obtain ⟨p, x, hm, -⟩ := hl
    cases hm
  | cons e h ih =>
    by_cases he : ∃ p x, e = .launched p x ∧ x.scheduler = k
    · obtain ⟨p, x, rfl, hk⟩ := he
      exact ⟨[], p, x, h, rfl, hk, nofun⟩
    · obtain ⟨p, x, hm, hk⟩ := hl
      rcases List.mem_cons.mp hm with rfl | hm
      · exact absurd ⟨p, x, rfl, hk⟩ he
      · obtain ⟨h₁, q, y, h₂, rfl, hy, hfirst⟩ := ih ⟨p, x, hm, hk⟩
        refine ⟨e :: h₁, q, y, h₂, rfl, hy, fun q' y' hm' hk' => ?_⟩
        rcases List.mem_cons.mp hm' with rfl | hm'
        · exact he ⟨q', y', rfl, hk'⟩
        · exact hfirst q' y' hm' hk'

/-- A scheduler has one current pass at most, so no two of its passes are in flight. -/
theorem Sound.exclusive (hs : Sound h s) {p q : PassId} {x y : Pass}
    (hx : s.passes[p]? = some x) (hy : s.passes[q]? = some y) (hk : x.scheduler = y.scheduler)
    (hp : History.InFlight h p) (hq : History.InFlight h q) : p = q := by
  have hz := List.getElem?_eq_getElem (hs.pass_lt p x hx)
  have h₁ := (hs.booking.current_iff _ _ p hz).mpr ⟨hp, x, hx, rfl⟩
  have h₂ := (hs.booking.current_iff _ _ q hz).mpr ⟨hq, y, hy, hk.symm⟩
  exact Option.some.inj (h₁.symm.trans h₂)

/-- Either a later pass took the file, or nobody has taken anything since. -/
theorem Sound.kept (hs : Sound h s) {h₁ h₂ : History ρ} {n : NotificationId} {c : Callback}
    (heq : h = h₁ ++ .accepted n c :: h₂) :
    (∃ (p : PassId) (x : Pass),
      .launched p x ∈ h₂ ∧ x.scheduler = c.scheduler ∧ c.relative ∈ x.files) ∨
    ∃ y, s.schedulers[c.scheduler]? = some y ∧ c.relative ∈ y.dirty := by
  by_cases hl : ∃ p x, .launched p x ∈ h₂ ∧ x.scheduler = c.scheduler
  · obtain ⟨a, p, x, b, rfl, hx, hfirst⟩ := exists_first_launch c.scheduler h₂ hl
    refine Or.inl ⟨p, x, by simp, hx, ?_⟩
    rw [(hs.batched (h₁ ++ .accepted n c :: a) p x b (by simp [heq])).1, hx]
    exact History.mem_changed_of_accepted hfirst
  · obtain ⟨st, hn, -⟩ := hs.acceptance.begun n c (by simp [heq])
    obtain ⟨y, hy⟩ := hs.booking.scheduled n c st hn
    refine Or.inr ⟨y, hy, ?_⟩
    rw [hs.booking.dirty_eq _ y hy, heq]
    exact History.mem_changed_of_accepted fun p x hm hx => hl ⟨p, x, hm, hx⟩

theorem Sound.result (hs : Sound h s) {p : PassId} {x : Pass} {r : Option ρ}
    (hl : .launched p x ∈ h) (hr : .ended p r ∈ h) :
    ∃ c, .accepted x.owner c ∈ h ∧ c.scheduler = x.scheduler ∧
      s.notifications[x.owner]? = some ⟨c, .finished r⟩ := by
  have hp := (hs.ownership.launched_iff p x).mp hl
  obtain ⟨c, hc⟩ := hs.ownership.returned p x r hp hr
  obtain ⟨d, hd, hk⟩ := hs.acceptance.of_owner p x hp
  obtain ⟨st, hst, -⟩ := hs.acceptance.begun _ d hd
  obtain ⟨rfl, -⟩ := Notification.mk.inj (Option.some.inj (hc.symm.trans hst))
  exact ⟨c, hd, hk, hc⟩

/-- Passes of one scheduler exclude each other, take each accepted change once and lose none, and
give their results to one notification each, in every run. -/
theorem passes_serialized [Sub T] [LT T] [DecidableLT T] {cwd : String} {watcher : Watcher}
    (run : Run cwd watcher h s) (k : SchedulerId) : Serialized h s k := by
  have hs := run.sound
  have hpass := hs.ownership.launched_iff
  constructor
  · intro p q x y hp hq hx hy hfp hfq
    exact hs.exclusive ((hpass p x).mp hp) ((hpass q y).mp hq) (hx.trans hy.symm) hfp hfq
  · intro h₁ h₂ p x heq hk
    obtain ⟨hfiles, hne⟩ := hs.batched h₁ p x h₂ heq
    rw [hk] at hfiles
    exact ⟨hne, hfiles ▸ History.nodup_changed h₁ k, hfiles⟩
  · rintro h₁ h₂ n c heq rfl
    refine (hs.kept heq).imp_right ?_
    rintro ⟨y, hy, hm⟩
    exact ⟨y, hy, hm, hs.booking.unclaimed _ y hy (List.ne_nil_of_mem hm)⟩
  · intro y hy hnone
    by_contra hd
    obtain ⟨m, d, st, hm, hk, hst⟩ := hs.booking.unclaimed k y hy hd
    rw [hnone m d st hm hk] at hst
    cases hst
  · rintro p x r hl rfl hr
    refine ⟨x.owner, ⟨⟨x, hl, rfl⟩, hs.result hl hr⟩, ?_⟩
    rintro n ⟨⟨z, hz, rfl⟩, -⟩
    rw [Option.some.inj (((hpass p z).mp hz).symm.trans ((hpass p x).mp hl))]
  · intro p q x y hp hq he
    exact hs.ownership.owner_inj p q x y ((hpass p x).mp hp) ((hpass q y).mp hq) he
  · intro n c r _ hn hno
    exact hs.ownership.relieved n c r hn fun p x hp => hno p x ((hpass p x).mpr hp)

/-- Two changes in one turn of the loop: the first notification launches a pass over both files and
returns its result, the second one waits for it and returns nothing. -/
theorem passes_serialized_two_changes :
    ∃ s : State Nat String,
      Run "/" (.table [] .empty) [.accepted 0 ⟨0, "/a", "a"⟩, .accepted 1 ⟨0, "/b", "b"⟩,
        .launched 0 ⟨0, ["a", "b"], 0⟩, .ended 0 (some "pass 1")] s ∧
      Serialized [.accepted 0 ⟨0, "/a", "a"⟩, .accepted 1 ⟨0, "/b", "b"⟩,
        .launched 0 ⟨0, ["a", "b"], 0⟩, .ended 0 (some "pass 1")] s 0 := by
  have h₀ : Run (T := Nat) (ρ := String) "/" (.table [] .empty) [] _ := .start
  have h₁ := h₀.next (.enlist _ "/" 1)
  have h₂ := h₁.next (.report ⟨0, "/a", "a"⟩ (by decide))
  have h₃ := h₂.next (.report ⟨0, "/b", "b"⟩ (by decide))
  have h₄ := h₃.next (.accept 0 5 rfl rfl rfl)
  have h₅ := h₄.next (.accept 1 5 rfl rfl rfl)
  have h₆ := h₅.next (.launch (p := 0) (x := ⟨0, ["a", "b"], 0⟩) 0 rfl rfl rfl rfl)
  have h₇ := h₆.next (.wait 1 rfl rfl rfl)
  have h₈ := h₇.next (.finish (p := 0) ⟨⟨⟨0, ["a", "b"], 0⟩, by simp⟩, by simp⟩ (some "pass 1"))
  have h₉ := h₈.next (.wait 1 rfl rfl rfl)
  exact ⟨_, h₉, passes_serialized h₉ 0⟩

end Serialized

end TemplateHost.Watch
