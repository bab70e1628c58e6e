import TemplateHost.Proofs.Watch.Registration

/-!
# What is kept while changes are handled

Handling changes keeps who is registered for which file, and a pass belongs to the scheduler that
the change which launched it was reported to. Registering a file does nothing for a file that has
been registered before; a file that is refused once is always refused.
-/
namespace TemplateHost.Watch
variable {T ρ : Type}

def Watcher.Refuses : Watcher → String → Prop
  | .table refused _, file => refused.contains file = true
  | .live unwatchable w, file =>
    unwatchable.contains (Path.directory (Path.absolute w.cwd file)) = true ∧
      Path.directory (Path.absolute w.cwd file) ∉ w.directories

theorem startObserver_frame {κ : Type} (w : FileWatcher κ) :
    w.startObserver.directories = w.directories ∧ w.startObserver.cwd = w.cwd ∧
      w.startObserver.callbacks = w.callbacks := by
  unfold FileWatcher.startObserver
  split <;> exact ⟨rfl, rfl, rfl⟩

theorem schedule_cases {κ : Type} (w : FileWatcher κ) (unwatchable : String → Bool)
    (directory : String) :
    (unwatchable directory = true ∧ directory ∉ w.directories ∧
      ∃ e, w.schedule unwatchable directory = .error e) ∨
    ¬(unwatchable directory = true ∧ directory ∉ w.directories) ∧
      ∃ v, w.schedule unwatchable directory = .ok v ∧ v.cwd = w.cwd ∧
        ∀ d ∈ v.directories, d ∈ w.directories ∨ unwatchable d = false := by
  unfold FileWatcher.schedule
  by_cases hd : directory ∈ w.directories
  · rw [if_pos (by simpa using hd)]
    exact Or.inr ⟨fun h => h.2 hd, w, rfl, rfl, fun d hm => Or.inl hm⟩
  · rw [if_neg (by simpa using hd)]
    by_cases hu : unwatchable directory = true
    · rw [if_pos hu]
      exact Or.inl ⟨hu, hd, _, rfl⟩
    · rw [if_neg hu]
      refine Or.inr ⟨fun h => hu h.1, _, rfl, rfl, fun d hm => ?_⟩
      rcases List.mem_append.mp hm with hold | hnew
      · exact Or.inl hold
      · rw [List.mem_singleton.mp hnew]
        exact Or.inr (by simpa using hu)

theorem Watcher.watch_cases (w : Watcher) (file : String) (c : Callback) :
    (w.Refuses file ∧ ∃ kind w', w.watch file c = (.error kind, w') ∧
      (∀ f, w.Refuses f → w'.Refuses f) ∧ ∀ f, w'.callback? f = w.callback? f) ∨
    ¬w.Refuses file ∧ ∃ w', w.watch file c = (.ok (), w') ∧ ∀ f, w.Refuses f → w'.Refuses f := by
  cases w with
  | table refused callbacks =>
    unfold watch
    by_cases hr : refused.contains file = true
    · dsimp only
      rw [if_pos hr]
      exact Or.inl ⟨hr, _, _, rfl, fun _ => id, fun _ => rfl⟩
    · dsimp only
      rw [if_neg hr]
      exact Or.inr ⟨hr, _, rfl, fun _ => id⟩
  | live unwatchable w =>
    obtain ⟨hdirs, hcwd, hcallbacks⟩ := startObserver_frame { w with attached := true }
    unfold watch FileWatcher.watch
    dsimp only
    generalize FileWatcher.startObserver { w with attached := true } = v at hdirs hcwd hcallbacks
    dsimp only at hdirs hcwd hcallbacks
    have hkeep (u : FileWatcher Callback) (hu : u.cwd = w.cwd)
        (hd : ∀ d ∈ u.directories, d ∈ w.directories ∨ unwatchable.contains d = false) (f : String)
        (hf : (Watcher.live unwatchable w).Refuses f) : (Watcher.live unwatchable u).Refuses f := by
      change unwatchable.contains (Path.directory (Path.absolute u.cwd f)) = true ∧
        Path.directory (Path.absolute u.cwd f) ∉ u.directories
      rw [hu]
      refine ⟨hf.1, fun hm => ?_⟩
      rcases hd _ hm with hold | hno
      · exact hf.2 hold
      · rw [hf.1] at hno
        cases hno
    rcases schedule_cases v unwatchable.contains (Path.directory (Path.absolute w.cwd file)) with
      ⟨hun, hno, e, he⟩ | ⟨hcan, u, hu, hucwd, hudirs⟩
    · rw [he]
      refine Or.inl ⟨⟨hun, hdirs ▸ hno⟩, _, _, rfl, hkeep v hcwd fun d hd => ?_, fun f => ?_⟩
      · exact Or.inl (hdirs ▸ hd)
      · exact congrArg (Table.get? · f) hcallbacks
    · rw [hu]
      refine Or.inr ⟨fun h => hcan ⟨h.1, hdirs.symm ▸ h.2⟩, _, rfl, hkeep _ ?_ fun d hd => ?_⟩
      · exact hucwd.trans hcwd
      · exact hdirs ▸ hudirs d hd

namespace State

theorem contains_set_self (times : Table String T) (f : String) (now : T) :
    (times.set f now).contains f = true := by
  unfold Table.contains
  rw [Table.get?_set_self]
  rfl

theorem contains_set_of_contains {times : Table String T} {f : String} (g : String) (now : T)
    (hf : times.contains f = true) : (times.set g now).contains f = true := by
  by_cases hg : f = g
  · rw [hg]
    exact contains_set_self times g now
  · unfold Table.contains at hf ⊢
    rwa [Table.get?_set_ne _ hg]

/-- Sources have been registered for a scheduler. -/
structure Registers (k : SchedulerId) (named : List String) (s t : State T ρ) : Prop where
  cwd : t.cwd = s.cwd
  schedulers : t.schedulers = s.schedulers
  notifications : t.notifications = s.notifications
  passes : t.passes = s.passes
  times (f : String) : s.times.contains f = true → t.times.contains f = true
  refuses (f : String) : s.watcher.Refuses f → t.watcher.Refuses f
  /-- Who is registered was so before, or is new and the file is one of the sources. -/
  callbacks (f : String) (c : Callback) : t.watcher.callback? f = some c →
    s.watcher.callback? f = some c ∨ c.scheduler = k ∧ c.file ∈ named ∧
      s.times.contains c.file = false ∧ ¬s.watcher.Refuses c.file
  known (f : String) : f ∈ named → t.times.contains f = true ∨ t.watcher.Refuses f

variable {s t u : State T ρ} {k : SchedulerId} {named more : List String}

theorem registers_nil (s : State T ρ) (k : SchedulerId) : Registers k [] s s :=
  ⟨rfl, rfl, rfl, rfl, fun _ => id, fun _ => id, fun _ _ => Or.inl, nofun⟩

theorem Registers.append (h₁ : Registers k named s t) (h₂ : Registers k more t u) :
    Registers k (named ++ more) s u where
  cwd := h₂.cwd.trans h₁.cwd
  schedulers := h₂.schedulers.trans h₁.schedulers
  notifications := h₂.notifications.trans h₁.notifications
  passes := h₂.passes.trans h₁.passes
  times f hf := h₂.times f (h₁.times f hf)
  refuses f hf := h₂.refuses f (h₁.refuses f hf)
  callbacks f c hc := by
    rcases h₂.callbacks f c hc with hold | ⟨hk, hm, htimes, hcan⟩
    · rcases h₁.callbacks f c hold with hold | ⟨hk, hm, hnew⟩
      · exact Or.inl hold
      · exact Or.inr ⟨hk, List.mem_append_left _ hm, hnew⟩
    · refine Or.inr ⟨hk, List.mem_append_right _ hm, ?_, fun hr => hcan (h₁.refuses _ hr)⟩
      rw [Bool.eq_false_iff] at htimes ⊢
      exact fun hs => htimes (h₁.times _ hs)
  known f hf := by
    rcases List.mem_append.mp hf with hm | hm
    · exact (h₁.known f hm).imp (h₂.times f) (h₂.refuses f)
    · exact h₂.known f hm

def fileOf (s : State T ρ) (inputDir relative : String) : String :=
  Path.absolute s.cwd (Path.under inputDir relative)

theorem registers_watch {x : Scheduler T} (hx : s.schedulers[k]? = some x) (now : T)
    (relative : String) :
    Registers k [s.fileOf x.inputDir relative] s (s.watch k now relative).2.2 := by
  generalize hfile : s.fileOf x.inputDir relative = file
  unfold fileOf at hfile
  unfold State.watch
  rw [hx]
  dsimp only
  rw [hfile]
  by_cases hknown : s.times.contains file = true
  · rw [if_pos hknown]
    exact ⟨rfl, rfl, rfl, rfl, fun _ => id, fun _ => id, fun _ _ => Or.inl,
      List.forall_mem_singleton.mpr (Or.inl hknown)⟩
  · rw [if_neg hknown]
    have hnew (w : Watcher) (hw : w = (s.watcher.watch file ⟨k, file, relative⟩).2)
        (hcan : ¬s.watcher.Refuses file) (f : String) (c : Callback)
        (hc : w.callback? f = some c) : s.watcher.callback? f = some c ∨ c.scheduler = k ∧
          c.file ∈ [file] ∧ s.times.contains c.file = false ∧ ¬s.watcher.Refuses c.file := by
      rcases Watcher.callback?_watch (hw ▸ hc) with rfl | hold
      · exact Or.inr ⟨rfl, List.mem_singleton_self _, by simpa using hknown, hcan⟩
      · exact Or.inl hold
    rcases s.watcher.watch_cases file ⟨k, file, relative⟩ with
      ⟨hr, kind, w, hw, hkeep, hsame⟩ | ⟨hcan, w, hw, hkeep⟩
    · rw [hw]
      exact ⟨rfl, rfl, rfl, rfl, fun _ => id, hkeep, fun f c hc => Or.inl (hsame f ▸ hc),
        List.forall_mem_singleton.mpr (Or.inr (hkeep file hr))⟩
    · rw [hw]
      exact ⟨rfl, rfl, rfl, rfl, fun f => contains_set_of_contains file now, hkeep,
        hnew w (by rw [hw]) hcan,
        List.forall_mem_singleton.mpr (Or.inl (contains_set_self s.times file now))⟩

theorem registers_watchAll {x : Scheduler T} (hx : s.schedulers[k]? = some x) (now : T)
    (files : List String) :
    Registers k (files.map (s.fileOf x.inputDir)) s (s.watchAll k now files).2 := by
  induction files generalizing s with
  | nil => exact registers_nil s k
  | cons f r ih =>
    have hone := registers_watch hx now f
    have hrest := ih (s := (s.watch k now f).2.2) (by rw [hone.schedulers]; exact hx)
    have hname : (s.watch k now f).2.2.fileOf x.inputDir = s.fileOf x.inputDir := by
      funext relative
      unfold fileOf
      rw [hone.cwd]
    rw [hname] at hrest
    exact hone.append hrest

/-- Whom the changes that have been reported were reported to. -/
def reports (s : State T ρ) : List Callback := s.notifications.map (·.callback)

/-- Changes have been handled. A new pass belongs to the scheduler of the change that launched
it. -/
structure Handles (s t : State T ρ) : Prop where
  cwd : t.cwd = s.cwd
  watcher : t.watcher = s.watcher
  schedulers : t.schedulers.length = s.schedulers.length
  reports : t.reports = s.reports
  times (f : String) : s.times.contains f = true → t.times.contains f = true
  passes (x : Pass) : x ∈ t.passes → x ∈ s.passes ∨
    ∃ c, s.reports[x.owner]? = some c ∧ c.scheduler = x.scheduler

theorem handles_refl (s : State T ρ) : Handles s s :=
  ⟨rfl, rfl, rfl, rfl, fun _ => id, fun _ => Or.inl⟩

theorem reports_setStage (s : State T ρ) (n : NotificationId) (st : Stage ρ) :
    (s.setStage n st).reports = s.reports := by
  refine List.ext_getElem? fun i => ?_
  unfold reports setStage
  simp only [List.getElem?_map, List.getElem?_modify]
  cases s.notifications[i]? with
  | none => rfl
  | some x => by_cases hi : n = i <;> simp [hi]

theorem handles_setStage (s : State T ρ) (n : NotificationId) (st : Stage ρ) :
    Handles s (s.setStage n st) :=
  ⟨rfl, rfl, rfl, reports_setStage s n st, fun _ => id, fun _ => Or.inl⟩

theorem handles_endPass (s : State T ρ) (p : PassId) (result : Option ρ) :
    Handles s (s.endPass p result) := by
  unfold endPass
  split
  · exact handles_refl s
  · exact ⟨rfl, rfl, by simp [modifyScheduler], reports_setStage _ _ _, fun _ => id,
      fun _ => Or.inl⟩

theorem handles_proceed (s : State T ρ) (n : NotificationId) : Handles s (s.proceed n).2.2 := by
  unfold proceed
  split
  · exact handles_refl s
  · next c st hn =>
    split
    · exact handles_refl s
    · split
      · exact handles_setStage s n _
      · split
        · exact handles_setStage s n _
        · refine ⟨rfl, rfl, by simp [launch, modifyScheduler], reports_setStage _ _ _, fun _ => id,
            fun x hx => ?_⟩
          rcases List.mem_append.mp hx with hold | hnew
          · exact Or.inl hold
          · refine Or.inr ⟨c, ?_, ?_⟩
            · rw [List.mem_singleton.mp hnew]
              simp [reports, hn]
            · rw [List.mem_singleton.mp hnew]

theorem handles_accept [Sub T] [LT T] [DecidableLT T] (s : State T ρ) (n : NotificationId)
    (now : T) : Handles s (s.accept n now).2 := by
  unfold accept
  split
  · exact handles_refl s
  · split
    · exact handles_refl s
    · dsimp only
      split
      · exact ⟨rfl, rfl, by simp [modifyScheduler], reports_setStage _ _ _,
          fun f => contains_set_of_contains _ now, fun _ => Or.inl⟩
      · exact handles_setStage s n _

end State

end TemplateHost.Watch
