import Mathlib.Data.List.DropRight
import TemplateHost.Watch.State

/-!
# Histories of schedulers

A step is one turn of a task on the event loop, or something that reaches the schedulers from
outside; steps come in any order. The history of a run keeps the changes that were accepted and the
passes that were launched and that ended. Between its launch and its end a pass takes turns of its
own, which leave the schedulers alone, so they do not appear here.
-/
namespace TemplateHost.Watch
variable {T ρ : Type}

inductive Event (ρ : Type) where
  | accepted (n : NotificationId) (c : Callback)
  | launched (p : PassId) (x : Pass)
  | ended (p : PassId) (result : Option ρ)

abbrev History (ρ : Type) := List (Event ρ)

namespace Event

def isLaunchOf (k : SchedulerId) : Event ρ → Bool
  | .launched _ x => x.scheduler = k
  | _ => false

def acceptedFile? (k : SchedulerId) : Event ρ → Option String
  | .accepted _ c => if c.scheduler = k then some c.relative else none
  | _ => none

end Event

namespace History

/-- What happened since a scheduler last launched a pass. -/
def sinceLaunch (h : History ρ) (k : SchedulerId) : History ρ :=
  h.rtakeWhile fun e => !e.isLaunchOf k

/-- The files accepted since a scheduler last launched a pass, each where it came first. -/
def changed (h : History ρ) (k : SchedulerId) : List String :=
  ((sinceLaunch h k).filterMap (Event.acceptedFile? k)).eraseDups

def InFlight (h : History ρ) (p : PassId) : Prop :=
  (∃ x, .launched p x ∈ h) ∧ ∀ r, .ended p r ∉ h

theorem eraseDups_concat (l : List String) (a : String) :
    (l ++ [a]).eraseDups = if a ∈ l then l.eraseDups else l.eraseDups ++ [a] := by
  rw [List.eraseDups_append]
  by_cases ha : a ∈ l <;> simp [List.removeAll, List.eraseDups_cons, ha]

theorem nodup_eraseDups (l : List String) : l.eraseDups.Nodup := by
  induction l using List.reverseRecOn with
  | nil => simp
  | append_singleton l b ih =>
    rw [eraseDups_concat]
    by_cases hb : b ∈ l
    · rwa [if_pos hb]
    · rw [if_neg hb]
      exact List.nodup_append.mpr ⟨ih, by simp, fun a ha c hc hac =>
        hb (List.mem_eraseDups.mp (List.mem_singleton.mp hc ▸ hac ▸ ha))⟩

theorem nodup_changed (h : History ρ) (k : SchedulerId) : (changed h k).Nodup :=
  nodup_eraseDups _

@[simp] theorem changed_nil (k : SchedulerId) : changed ([] : History ρ) k = [] := rfl

theorem sinceLaunch_concat (h : History ρ) (k : SchedulerId) (e : Event ρ) :
    sinceLaunch (h ++ [e]) k = if e.isLaunchOf k then [] else sinceLaunch h k ++ [e] := by
  unfold sinceLaunch
  rw [List.rtakeWhile_concat]
  cases e.isLaunchOf k <;> simp

theorem changed_launched (h : History ρ) (k : SchedulerId) (p : PassId) (x : Pass) :
    changed (h ++ [.launched p x]) k = if x.scheduler = k then [] else changed h k := by
  unfold changed
  rw [sinceLaunch_concat]
  by_cases hk : x.scheduler = k <;>
    simp [Event.isLaunchOf, Event.acceptedFile?, List.filterMap_cons, hk]

theorem changed_ended (h : History ρ) (k : SchedulerId) (p : PassId) (r : Option ρ) :
    changed (h ++ [.ended p r]) k = changed h k := by
  unfold changed
  rw [sinceLaunch_concat]
  simp [Event.isLaunchOf, Event.acceptedFile?, List.filterMap_cons]

theorem changed_accepted_of_ne (h : History ρ) {k : SchedulerId} (n : NotificationId)
    {c : Callback} (hk : c.scheduler ≠ k) :
    changed (h ++ [.accepted n c]) k = changed h k := by
  unfold changed
  rw [sinceLaunch_concat]
  simp [Event.isLaunchOf, Event.acceptedFile?, hk]

theorem changed_accepted (h : History ρ) (n : NotificationId) (c : Callback) :
    changed (h ++ [.accepted n c]) c.scheduler =
      if c.relative ∈ changed h c.scheduler then changed h c.scheduler
      else changed h c.scheduler ++ [c.relative] := by
  have hs : changed (h ++ [.accepted n c]) c.scheduler =
      ((sinceLaunch h c.scheduler).filterMap (Event.acceptedFile? c.scheduler) ++
        [c.relative]).eraseDups := by
    unfold changed
    rw [sinceLaunch_concat]
    simp [Event.isLaunchOf, Event.acceptedFile?]
  rw [hs, eraseDups_concat]
  simp only [changed, List.mem_eraseDups]

theorem mem_changed_of_accepted {h₁ h₂ : History ρ} {n : NotificationId} {c : Callback}
    (hl : ∀ p x, .launched p x ∈ h₂ → x.scheduler ≠ c.scheduler) :
    c.relative ∈ changed (h₁ ++ .accepted n c :: h₂) c.scheduler := by
  induction h₂ using List.reverseRecOn with
  | nil =>
    rw [changed_accepted]
    split_ifs with hm
    · exact hm
    · exact List.mem_append_right _ (List.mem_singleton_self _)
  | append_singleton h e ih =>
    have hih := ih fun p x hx => hl p x (List.mem_append_left _ hx)
    rw [← List.cons_append, ← List.append_assoc]
    cases e with
    | accepted m d =>
      by_cases hd : d.scheduler = c.scheduler
      · rw [← hd] at hih ⊢
        rw [changed_accepted]
        split_ifs
        · exact hih
        · exact List.mem_append_left _ hih
      · rwa [changed_accepted_of_ne _ _ hd]
    | launched p x => rwa [changed_launched, if_neg (hl p x (by simp))]
    | ended p r => rwa [changed_ended]

theorem inFlight_accepted (h : History ρ) (n : NotificationId) (c : Callback) (p : PassId) :
    InFlight (h ++ [.accepted n c]) p ↔ InFlight h p := by
  simp [InFlight]

theorem inFlight_launched (h : History ρ) (q : PassId) (x : Pass) (p : PassId) :
    InFlight (h ++ [.launched q x]) p ↔ InFlight h p ∨ p = q ∧ ∀ r, .ended p r ∉ h := by
  simp only [InFlight, List.mem_append, List.mem_singleton, Event.launched.injEq, reduceCtorEq,
    or_false]
  constructor
  · rintro ⟨⟨y, hy | ⟨rfl, -⟩⟩, hr⟩
    · exact Or.inl ⟨⟨y, hy⟩, hr⟩
    · exact Or.inr ⟨rfl, hr⟩
  · rintro (⟨⟨y, hy⟩, hr⟩ | ⟨rfl, hr⟩)
    · exact ⟨⟨y, Or.inl hy⟩, hr⟩
    · exact ⟨⟨x, Or.inr ⟨rfl, rfl⟩⟩, hr⟩

theorem inFlight_ended (h : History ρ) (q : PassId) (r : Option ρ) (p : PassId) :
    InFlight (h ++ [.ended q r]) p ↔ InFlight h p ∧ p ≠ q := by
  simp only [InFlight, List.mem_append, List.mem_singleton, Event.ended.injEq, reduceCtorEq,
    or_false, not_or, not_and]
  constructor
  · rintro ⟨hl, hr⟩
    exact ⟨⟨hl, fun r' => (hr r').1⟩, fun hq => (hr r).2 hq rfl⟩
  · rintro ⟨⟨hl, hr⟩, hq⟩
    exact ⟨hl, fun r' => ⟨hr r', fun hpq => absurd hpq hq⟩⟩

theorem changed_eq_nil {h : History ρ} {k : SchedulerId}
    (hk : ∀ n c, .accepted n c ∈ h → c.scheduler ≠ k) : changed h k = [] := by
  rw [List.eq_nil_iff_forall_not_mem]
  intro f hf
  obtain ⟨e, he, hfe⟩ := List.mem_filterMap.mp (List.mem_eraseDups.mp hf)
  have hmem : e ∈ h := (List.rtakeWhile_suffix _ _).subset he
  cases e with
  | accepted n c => simp [Event.acceptedFile?, hk n c hmem] at hfe
  | launched p x => simp [Event.acceptedFile?] at hfe
  | ended p r => simp [Event.acceptedFile?] at hfe

end History

/-- Whether a notification was accepted and has yet to claim what is dirty. -/
def Stage.isUnclaimed : Stage ρ → Bool
  | .accepted | .waiting => true
  | .arrived | .owning _ | .finished _ => false

/-- One step of a run with the events that it adds to the history. -/
inductive Step [Sub T] [LT T] [DecidableLT T] (h : History ρ) :
    State T ρ → History ρ → State T ρ → Prop where
  | enlist (s : State T ρ) (inputDir : String) (debounce : T) :
      Step h s [] (s.addScheduler inputDir debounce).2
  | register (s : State T ρ) (k : SchedulerId) (now : T) (relative : String) :
      Step h s [] (s.watch k now relative).2.2
  | close (s : State T ρ) : Step h s [] s.close
  | report {s : State T ρ} (c : Callback) (hc : c.scheduler < s.schedulers.length) :
      Step h s [] (s.notify c).2
  | accept {s : State T ρ} {c : Callback} {x : Scheduler T} (n : NotificationId) (now : T)
      (hn : s.notifications[n]? = some ⟨c, .arrived⟩) (hx : s.schedulers[c.scheduler]? = some x)
      (hd : State.isDue (s.times.get? c.file) now x.debounce = true) :
      Step h s [.accepted n c] (s.accept n now).2
  | drop {s : State T ρ} {c : Callback} {x : Scheduler T} (n : NotificationId) (now : T)
      (hn : s.notifications[n]? = some ⟨c, .arrived⟩) (hx : s.schedulers[c.scheduler]? = some x)
      (hd : State.isDue (s.times.get? c.file) now x.debounce = false) :
      Step h s [] (s.accept n now).2
  | wait {s : State T ρ} {c : Callback} {st : Stage ρ} (n : NotificationId)
      (hn : s.notifications[n]? = some ⟨c, st⟩) (hs : st.isUnclaimed = true)
      (hp : (s.proceed n).2.1 = none) : Step h s [] (s.proceed n).2.2
  | launch {s : State T ρ} {c : Callback} {st : Stage ρ} {p : PassId} {x : Pass}
      (n : NotificationId) (hn : s.notifications[n]? = some ⟨c, st⟩)
      (hs : st.isUnclaimed = true) (hp : (s.proceed n).2.1 = some p)
      (hx : (s.proceed n).2.2.passes[p]? = some x) :
      Step h s [.launched p x] (s.proceed n).2.2
  | finish {s : State T ρ} {p : PassId} (hp : History.InFlight h p) (result : Option ρ) :
      Step h s [.ended p result] (s.endPass p result)

/-- A run from fresh schedulers. -/
inductive Run [Sub T] [LT T] [DecidableLT T] (cwd : String) (watcher : Watcher) :
    History ρ → State T ρ → Prop where
  | start : Run cwd watcher [] (.new cwd watcher)
  | next {h es : History ρ} {s t : State T ρ} (hr : Run cwd watcher h s) (hs : Step h s es t) :
      Run cwd watcher (h ++ es) t

end TemplateHost.Watch
