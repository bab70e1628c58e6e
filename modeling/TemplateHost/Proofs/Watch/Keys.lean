import TemplateHost.Proofs.Options.Artifact
import TemplateHost.Proofs.Watch.Handling
import TemplateHost.Proofs.Watch.Loop
import TemplateHost.Proofs.Watch.Serialization

/-!
# Known files and watched files

A file is known from its registration on. A known file is watched, or else a change of it was
accepted that had been reported before the watcher last stopped.
-/
namespace TemplateHost

section FileWatcher

theorem FileWatcher.schedule_frame {κ : Type} {w v : FileWatcher κ} {unwatchable : String → Bool}
    {directory : String} (hv : w.schedule unwatchable directory = .ok v) :
    v.callbacks = w.callbacks ∧ v.cwd = w.cwd := by
  unfold FileWatcher.schedule at hv
  split at hv
  · obtain rfl := Except.ok.inj hv
    exact ⟨rfl, rfl⟩
  · split at hv
    · cases hv
    · obtain rfl := Except.ok.inj hv
      exact ⟨rfl, rfl⟩

/-- A registration sets the callback of its file, or it fails and sets none. -/
theorem FileWatcher.watch_frame {κ : Type} (w : FileWatcher κ) (unwatchable : String → Bool)
    (path : String) (c : κ) :
    (w.watch unwatchable path c).2.cwd = w.cwd ∧
      ((w.watch unwatchable path c).1 = .ok () ∧
        (w.watch unwatchable path c).2.callbacks =
          w.callbacks.set (Path.absolute w.cwd path) c ∨
        (∃ e, (w.watch unwatchable path c).1 = .error e) ∧
          (w.watch unwatchable path c).2.callbacks = w.callbacks) := by
  obtain ⟨-, hcwd, hcallbacks⟩ := Watch.startObserver_frame { w with attached := true }
  unfold FileWatcher.watch
  dsimp only at hcwd hcallbacks ⊢
  split
  · rename_i v hv
    obtain ⟨hv₁, hv₂⟩ := schedule_frame hv
    refine ⟨hv₂.trans hcwd, Or.inl ⟨rfl, ?_⟩⟩
    rw [hv₁, hcallbacks]
  · rename_i e he
    exact ⟨hcwd, Or.inr ⟨⟨e, rfl⟩, hcallbacks⟩⟩

end FileWatcher

namespace Watch
variable {T ρ : Type} {cwd : String}

namespace Watcher

/-- Nothing has been registered yet. -/
inductive IsNew (cwd : String) : Watcher → Prop where
  | table (refused : List String) : IsNew cwd (.table refused .empty)
  | live (unwatchable : List String) : IsNew cwd (.live unwatchable (.new cwd))

/-- Other paths than before are refused from now on. -/
def refuse (paths : List String) : Watcher → Watcher
  | .table _ callbacks => .table paths callbacks
  | .live _ w => .live paths w

/-- The directory that a watcher sees paths from. -/
def SeesFrom (cwd : String) : Watcher → Prop
  | .table .. => True
  | .live _ w => w.cwd = cwd

theorem IsNew.seesFrom {w : Watcher} (hw : w.IsNew cwd) : w.SeesFrom cwd := by
  cases hw with
  | table refused => trivial
  | live unwatchable => rfl

theorem IsNew.callback? {w : Watcher} (hw : w.IsNew cwd) (f : String) : w.callback? f = none := by
  cases hw <;> rfl

theorem callback?_refuse (w : Watcher) (paths : List String) (f : String) :
    (w.refuse paths).callback? f = w.callback? f := by
  cases w <;> rfl

theorem SeesFrom.refuse {w : Watcher} (hw : w.SeesFrom cwd) (paths : List String) :
    (w.refuse paths).SeesFrom cwd := by
  cases w <;> exact hw

theorem SeesFrom.stop {w : Watcher} (hw : w.SeesFrom cwd) : w.stop.SeesFrom cwd := by
  cases w with
  | table refused callbacks => trivial
  | live unwatchable w =>
    change w.stop.cwd = cwd
    unfold FileWatcher.stop
    dsimp only
    split <;> exact hw

theorem SeesFrom.watch {w : Watcher} (hw : w.SeesFrom cwd) (file : String) (c : Callback) :
    (w.watch file c).2.SeesFrom cwd := by
  cases w with
  | table refused callbacks =>
    unfold Watcher.watch
    dsimp only
    split <;> trivial
  | live unwatchable w => exact (w.watch_frame _ file c).1.trans hw

theorem SeesFrom.watch_cases {w : Watcher} (hw : w.SeesFrom cwd) {file : String}
    (hfile : Path.absolute cwd file = file) (c : Callback) :
    (∃ w', w.watch file c = (.ok (), w') ∧ w'.callback? file = some c ∧
      ∀ f, f ≠ file → w'.callback? f = w.callback? f) ∨
    ∃ kind w', w.watch file c = (.error kind, w') ∧ ∀ f, w'.callback? f = w.callback? f := by
  cases w with
  | table refused callbacks =>
    unfold Watcher.watch
    dsimp only
    split
    · exact Or.inr ⟨_, _, rfl, fun _ => rfl⟩
    · exact Or.inl ⟨_, rfl, Table.get?_set_self .., fun f hf => Table.get?_set_ne _ hf _⟩
  | live unwatchable w =>
    obtain ⟨-, ⟨hok, hset⟩ | ⟨⟨e, he⟩, hsame⟩⟩ := w.watch_frame unwatchable.contains file c
    · rw [show w.cwd = cwd from hw, hfile] at hset
      refine Or.inl ⟨.live unwatchable (w.watch unwatchable.contains file c).2, ?_, ?_, ?_⟩
      · exact Prod.ext (congrArg (Except.mapError FileError.kind) hok) rfl
      · exact (congrArg (Table.get? · file) hset).trans (Table.get?_set_self ..)
      · exact fun f hf => (congrArg (Table.get? · f) hset).trans (Table.get?_set_ne _ hf _)
    · refine Or.inr ⟨e.kind, .live unwatchable (w.watch unwatchable.contains file c).2, ?_, ?_⟩
      · exact Prod.ext (congrArg (Except.mapError FileError.kind) he) rfl
      · exact fun f => congrArg (Table.get? · f) hsame

end Watcher

namespace State

/-- What known files, callbacks and reported changes have in common. Some files are stray: they are
known and not watched. Some notifications are late: the watcher has stopped since. -/
structure Keyed (cwd : String) (stray : String → Prop) (late : NotificationId → Prop)
    (s : State T ρ) : Prop where
  directory : s.cwd = cwd
  seesFrom : s.watcher.SeesFrom cwd
  known (f : String) : s.times.contains f = true ↔ (s.watcher.callback? f).isSome ∨ stray f
  unwatched (f : String) : stray f → s.watcher.callback? f = none
  callback (f : String) (c : Callback) : s.watcher.callback? f = some c →
    c.file = f ∧ c.scheduler < s.schedulers.length
  reported (n : NotificationId) (c : Callback) : s.reports[n]? = some c →
    c.scheduler < s.schedulers.length ∧ ((s.watcher.callback? c.file).isSome ∨ late n)

variable {s t : State T ρ} {stray : String → Prop} {late : NotificationId → Prop}

theorem keyed_new {watcher : Watcher} (hw : watcher.IsNew cwd) :
    (State.new cwd watcher : State T ρ).Keyed cwd (fun _ => False) (fun _ => False) where
  directory := rfl
  seesFrom := hw.seesFrom
  known f := by
    rw [show (State.new cwd watcher : State T ρ).watcher = watcher from rfl, hw.callback?]
    simp [State.new, Table.contains]
  unwatched f := False.elim
  callback f c hc := by
    rw [show (State.new cwd watcher : State T ρ).watcher = watcher from rfl, hw.callback?] at hc
    cases hc
  reported n c hn := by simp [State.new, reports] at hn

theorem Keyed.of_iff (hs : s.Keyed cwd stray late) {stray' : String → Prop}
    {late' : NotificationId → Prop} (hstray : ∀ f, stray f ↔ stray' f)
    (hlate : ∀ n, late n → late' n) : s.Keyed cwd stray' late' where
  directory := hs.directory
  seesFrom := hs.seesFrom
  known f := (hs.known f).trans (or_congr_right (hstray f))
  unwatched f hf := hs.unwatched f ((hstray f).mpr hf)
  callback := hs.callback
  reported n c hn := (hs.reported n c hn).imp_right (Or.imp_right (hlate n))

theorem Keyed.of_callbacks (hs : s.Keyed cwd stray late) (hcwd : t.cwd = s.cwd)
    (hsees : t.watcher.SeesFrom cwd)
    (hcallbacks : ∀ f, t.watcher.callback? f = s.watcher.callback? f) (htimes : t.times = s.times)
    (hlen : s.schedulers.length ≤ t.schedulers.length) (hreports : t.reports = s.reports) :
    t.Keyed cwd stray late where
  directory := hcwd.trans hs.directory
  seesFrom := hsees
  known f := by
    rw [htimes, hcallbacks]
    exact hs.known f
  unwatched f hf := (hcallbacks f).trans (hs.unwatched f hf)
  callback f c hc :=
    (hs.callback f c (hcallbacks f ▸ hc)).imp_right fun h => Nat.lt_of_lt_of_le h hlen
  reported n c hn := by
    rw [hcallbacks]
    exact (hs.reported n c (hreports ▸ hn)).imp_left fun h => Nat.lt_of_lt_of_le h hlen

theorem Keyed.of_frame (hs : s.Keyed cwd stray late) (hcwd : t.cwd = s.cwd)
    (hw : t.watcher = s.watcher) (htimes : t.times = s.times)
    (hlen : s.schedulers.length ≤ t.schedulers.length) (hreports : t.reports = s.reports) :
    t.Keyed cwd stray late :=
  hs.of_callbacks hcwd (hw ▸ hs.seesFrom) (fun f => by rw [hw]) htimes hlen hreports

theorem Keyed.refuse (hs : s.Keyed cwd stray late) (paths : List String) :
    { s with watcher := s.watcher.refuse paths }.Keyed cwd stray late :=
  hs.of_callbacks rfl (hs.seesFrom.refuse paths) (s.watcher.callback?_refuse paths) rfl
    (Nat.le_refl _) rfl

/-- The outcome of registering a source: it is known already, it is watched from now on, or it is
refused and nothing about it is kept. -/
theorem Keyed.watch_cases (hcwd : Path.isAbsolute cwd = true) (hs : s.Keyed cwd stray late)
    {k : SchedulerId} {x : Scheduler T} (hx : s.schedulers[k]? = some x) (now : T)
    (relative : String) :
    (s.watch k now relative).2.2.watcher.SeesFrom cwd ∧
    ((s.times.contains (s.fileOf x.inputDir relative) = true ∧
        s.watch k now relative = (false, [], s)) ∨
      s.times.contains (s.fileOf x.inputDir relative) = false ∧
        (s.watch k now relative).1 = true ∧
        (s.watch k now relative).2.2.times = s.times.set (s.fileOf x.inputDir relative) now ∧
        (s.watch k now relative).2.2.watcher.callback? (s.fileOf x.inputDir relative) =
          some ⟨k, s.fileOf x.inputDir relative, relative⟩ ∧
        (∀ f, f ≠ s.fileOf x.inputDir relative →
          (s.watch k now relative).2.2.watcher.callback? f = s.watcher.callback? f) ∨
      s.times.contains (s.fileOf x.inputDir relative) = false ∧
        (s.watch k now relative).1 = false ∧ (s.watch k now relative).2.2.times = s.times ∧
        ∀ f, (s.watch k now relative).2.2.watcher.callback? f = s.watcher.callback? f) := by
  have hfile : Path.absolute cwd (s.fileOf x.inputDir relative) = s.fileOf x.inputDir relative := by
    rw [fileOf, hs.directory]
    exact Path.absolute_absolute hcwd _
  generalize hf : s.fileOf x.inputDir relative = file at hfile
  unfold fileOf at hf
  unfold State.watch
  rw [hx]
  dsimp only
  rw [hf]
  by_cases hknown : s.times.contains file = true
  · rw [if_pos hknown]
    exact ⟨hs.seesFrom, Or.inl ⟨hknown, rfl⟩⟩
  · rw [if_neg hknown]
    rw [Bool.not_eq_true] at hknown
    have hsees := hs.seesFrom.watch file ⟨k, file, relative⟩
    rcases hs.seesFrom.watch_cases hfile ⟨k, file, relative⟩ with
      ⟨w, hw, hself, hne⟩ | ⟨kind, w, hw, hsame⟩
    · rw [hw] at hsees ⊢
      exact ⟨hsees, Or.inr (Or.inl ⟨hknown, rfl, rfl, hself, hne⟩)⟩
    · rw [hw] at hsees ⊢
      exact ⟨hsees, Or.inr (Or.inr ⟨hknown, rfl, rfl, hsame⟩)⟩

theorem contains_set_iff (times : Table String T) (f g : String) (now : T) :
    (times.set f now).contains g = true ↔ times.contains g = true ∨ g = f := by
  by_cases hg : g = f
  · rw [hg]
    exact iff_of_true (contains_set_self times f now) (Or.inr rfl)
  · unfold Table.contains
    rw [Table.get?_set_ne _ hg]
    simp [hg]

theorem Keyed.watch (hcwd : Path.isAbsolute cwd = true) (hs : s.Keyed cwd stray late)
    (k : SchedulerId) (now : T) (relative : String) :
    (s.watch k now relative).2.2.Keyed cwd stray late := by
  cases hx : s.schedulers[k]? with
  | none =>
    unfold State.watch
    rw [hx]
    exact hs
  | some x =>
    obtain ⟨hschedulers, hnotifications, -⟩ := s.watch_frame k now relative
    have hdirectory : (s.watch k now relative).2.2.cwd = s.cwd := (registers_watch hx now _).cwd
    have hreports : (s.watch k now relative).2.2.reports = s.reports :=
      congrArg (List.map Notification.callback) hnotifications
    obtain ⟨hsees, ⟨-, heq⟩ | ⟨hnew, -, htimes, hself, hne⟩ | ⟨hnew, -, htimes, hsame⟩⟩ :=
      hs.watch_cases hcwd hx now relative
    · rw [heq]
      exact hs
    · generalize (s.watch k now relative).2.2 = t at *
      generalize s.fileOf x.inputDir relative = file at *
      have hstray : ¬stray file := fun h => by
        rw [(hs.known file).mpr (Or.inr h)] at hnew
        cases hnew
      have hkept (f : String) (hc : (s.watcher.callback? f).isSome) :
          (t.watcher.callback? f).isSome := by
        by_cases hf : f = file
        · rw [hf, hself]
          rfl
        · rwa [hne f hf]
      refine ⟨hdirectory.trans hs.directory, hsees, fun f => ?_, fun f hf => ?_, fun f c hc => ?_,
        fun n c hn => ?_⟩
      · rw [htimes, contains_set_iff, hs.known]
        by_cases hf : f = file
        · simp [hf, hself]
        · simp [hf, hne f hf]
      · rw [hne f fun h => hstray (h ▸ hf)]
        exact hs.unwatched f hf
      · rw [hschedulers]
        by_cases hf : f = file
        · rw [hf, hself] at hc
          obtain rfl := Option.some.inj hc
          exact ⟨hf.symm, (List.getElem?_eq_some_iff.mp hx).1⟩
        · exact hs.callback f c (hne f hf ▸ hc)
      · rw [hschedulers]
        exact (hs.reported n c (hreports ▸ hn)).imp_right (Or.imp_left (hkept c.file))
    · exact hs.of_callbacks hdirectory hsees hsame htimes
        (Nat.le_of_eq (congrArg List.length hschedulers.symm)) hreports

theorem Keyed.watchAll (hcwd : Path.isAbsolute cwd = true) (hs : s.Keyed cwd stray late)
    (k : SchedulerId) (now : T) (files : List String) :
    (s.watchAll k now files).2.Keyed cwd stray late := by
  induction files generalizing s with
  | nil => exact hs
  | cons f r ih => exact ih (hs.watch hcwd k now f)

theorem Keyed.notify (hs : s.Keyed cwd stray late) {f : String} {c : Callback}
    (hc : s.watcher.callback? f = some c) : (s.notify c).2.Keyed cwd stray late where
  directory := hs.directory
  seesFrom := hs.seesFrom
  known := hs.known
  unwatched := hs.unwatched
  callback := hs.callback
  reported n d hn := by
    have hreports : (s.notify c).2.reports = s.reports ++ [c] := by simp [State.notify, reports]
    rw [hreports] at hn
    rcases Sequence.getElem?_concat_eq_some_iff.mp hn with hold | ⟨-, rfl⟩
    · exact hs.reported n d hold
    · obtain ⟨hfile, hlt⟩ := hs.callback f d hc
      refine ⟨hlt, Or.inl ?_⟩
      rw [show (s.notify d).2.watcher = s.watcher from rfl, hfile, hc]
      rfl

theorem Keyed.close (hs : s.Keyed cwd stray late) :
    s.close.Keyed cwd (fun _ => False) (fun n => n < s.notifications.length) where
  directory := hs.directory
  seesFrom := hs.seesFrom.stop
  known f := by
    rw [show s.close.watcher = s.watcher.stop from rfl, Watcher.callback?_stop]
    simp [State.close, Table.contains]
  unwatched f := False.elim
  callback f c hc := by
    rw [show s.close.watcher = s.watcher.stop from rfl, Watcher.callback?_stop] at hc
    cases hc
  reported n c hn := by
    refine ⟨(hs.reported n c hn).1, Or.inr ?_⟩
    have hlt := (List.getElem?_eq_some_iff.mp hn).1
    simpa [reports, State.close] using hlt

section Accept
variable [Sub T] [LT T] [DecidableLT T]

theorem contains_accept {n : NotificationId} {c : Callback} (hn : s.reports[n]? = some c)
    (hlt : c.scheduler < s.schedulers.length) (now : T) (f : String) :
    (s.accept n now).2.times.contains f = true ↔ s.times.contains f = true ∨ f = c.file := by
  obtain ⟨⟨d, st⟩, hd, rfl⟩ : ∃ x, s.notifications[n]? = some x ∧ x.callback = c := by
    simpa [reports] using hn
  dsimp only at hlt ⊢
  have hx := List.getElem?_eq_getElem hlt
  by_cases hdue : isDue (s.times.get? d.file) now s.schedulers[d.scheduler].debounce = true
  · rw [accept_of_due hd hx hdue]
    exact contains_set_iff s.times d.file f now
  · rw [accept_of_not_due hd hx (by simpa using hdue)]
    refine ⟨Or.inl, fun h => h.elim id ?_⟩
    rintro rfl
    -- A change is dropped only on account of an earlier one, which is known.
    unfold isDue at hdue
    unfold Table.contains
    split at hdue
    · simp [setStage, *]
    · exact absurd rfl hdue

/-- A change whose handling starts while its file is not watched makes the file stray. -/
theorem Keyed.accept (hs : s.Keyed cwd stray late) {n : NotificationId} {c : Callback}
    (hn : s.reports[n]? = some c) (now : T) :
    (s.accept n now).2.Keyed cwd
      (fun f => stray f ∨ c.file = f ∧ s.watcher.callback? f = none) late := by
  have hhandles := handles_accept s n now
  have hlt := (hs.reported n c hn).1
  refine ⟨hhandles.cwd.trans hs.directory, hhandles.watcher ▸ hs.seesFrom, fun f => ?_,
    fun f hf => ?_, fun f d hd => ?_, fun m d hm => ?_⟩
  · rw [contains_accept hn hlt, hhandles.watcher, hs.known]
    cases hc : s.watcher.callback? f with
    | none => simp [eq_comm]
    | some d => simp
  · rw [hhandles.watcher]
    exact hf.elim (hs.unwatched f) And.right
  · rw [hhandles.schedulers]
    exact hs.callback f d (hhandles.watcher ▸ hd)
  · rw [hhandles.schedulers, hhandles.watcher]
    exact hs.reported m d (hhandles.reports ▸ hm)

end Accept

theorem Keyed.proceed (hs : s.Keyed cwd stray late) (n : NotificationId) :
    (s.proceed n).2.2.Keyed cwd stray late := by
  have hhandles := handles_proceed s n
  refine hs.of_frame hhandles.cwd hhandles.watcher ?_ hhandles.schedulers.ge hhandles.reports
  unfold State.proceed
  repeat' split
  all_goals rfl

theorem Keyed.endPass (hs : s.Keyed cwd stray late) (p : PassId) (result : Option ρ) :
    (s.endPass p result).Keyed cwd stray late := by
  have hhandles := handles_endPass s p result
  refine hs.of_frame hhandles.cwd hhandles.watcher ?_ hhandles.schedulers.ge hhandles.reports
  unfold State.endPass
  split <;> rfl

end State

namespace Loop
variable {σ : Type} {l : Loop T σ ρ} {stray : String → Prop} {late : NotificationId → Prop}

/-- The change whose handling starts with the job at a position in the queue. -/
def starting? (l : Loop T σ ρ) (i : Nat) : Option (NotificationId × Callback) :=
  match l.queue[i]? with
  | some (.notification n) =>
    match l.watch.notifications[n]? with
    | some ⟨c, .arrived⟩ => some (n, c)
    | _ => none
  | _ => none

theorem reports_of_starting? {i : Nat} {n : NotificationId} {c : Callback}
    (hi : l.starting? i = some (n, c)) : l.watch.reports[n]? = some c := by
  unfold starting? at hi
  split at hi
  · split at hi
    · rename_i hn
      cases hi
      simp [State.reports, hn]
    · cases hi
  · cases hi

theorem keyed_absorb (e : Environment T σ ρ) (hl : l.watch.Keyed cwd stray late) (p : PassId)
    (o : Outcome σ (Option ρ)) : (l.absorb e p o).watch.Keyed cwd stray late := by
  rcases absorb_cases e l p o with ⟨r, hr, -⟩ | ⟨hsame, -⟩
  · exact hr ▸ hl.endPass p r
  · exact hsame ▸ hl

theorem keyed_runPass (e : Environment T σ ρ) (hl : l.watch.Keyed cwd stray late) (p : PassId) :
    (l.runPass e p).watch.Keyed cwd stray late := by
  unfold runPass
  split
  · exact keyed_absorb e hl p _
  · exact hl
  · split
    · exact hl
    · exact keyed_absorb e hl p _

variable [Sub T] [LT T] [DecidableLT T]

/-- A turn of the loop keeps what known files and watched files have in common, but for the file of
a change whose handling starts while the file is not watched. -/
theorem keyed_turn (e : Environment T σ ρ) (hl : l.watch.Keyed cwd stray late) (i : Nat) :
    (l.turn e i).watch.Keyed cwd (fun f => stray f ∨ ∃ n c, l.starting? i = some (n, c) ∧
      c.file = f ∧ l.watch.watcher.callback? f = none) late := by
  have hquiet (hno : l.starting? i = none) {t : Loop T σ ρ} (ht : t.watch.Keyed cwd stray late) :
      t.watch.Keyed cwd (fun f => stray f ∨ ∃ n c, l.starting? i = some (n, c) ∧
        c.file = f ∧ l.watch.watcher.callback? f = none) late :=
    ht.of_iff (fun f => by simp [hno]) fun _ => id
  unfold turn
  cases hj : l.queue[i]? with
  | none => exact hquiet (by simp [starting?, hj]) hl
  | some j =>
    dsimp only
    have hl' : (l.without i).watch.Keyed cwd stray late := hl
    cases j with
    | pass p => exact hquiet (by simp [starting?, hj]) (keyed_runPass e hl' p)
    | notification n =>
      change ((l.without i).runNotification e n).watch.Keyed cwd _ late
      unfold runNotification
      rw [show (l.without i).watch = l.watch from rfl]
      split
      · rename_i c hn
        have hstart : l.starting? i = some (n, c) := by simp [starting?, hj, hn]
        rw [acceptJob_watch]
        refine (hl.accept (reports_of_starting? hstart) _).of_iff (fun f => ?_) fun _ => id
        simp [hstart]
      all_goals
        refine hquiet (by simp [starting?, *]) ?_
        first
        | exact hl'
        | exact proceedJob_watch e (l.without i) n ▸ hl.proceed n

end Loop

end Watch

end TemplateHost
