import TemplateHost.Proofs.Watch.LateChanges

/-!
# Observers and their directories

A watcher has one observer after another: a stop ends the current one, and the next registration
starts a new one. The directories that a watcher knows are those that the current observer has been
given, each of them once, and the directory of every registered file is one of them.
-/
namespace TemplateHost.FileWatcher
variable {κ : Type}

/-- What observers are told, and the directories that the current one has been given. There is no
observer before the first start and after a stop. An observer is given no directory twice, and it is
stopped and joined before the next one starts. -/
inductive Observed : List ObserverCall → Option (List String) → Prop where
  | unobserved : Observed [] none
  | started {calls : List ObserverCall} (h : Observed calls none) :
      Observed (calls ++ [.start]) (some [])
  | scheduled {calls : List ObserverCall} {given : List String} {directory : String}
      (h : Observed calls (some given)) (hnew : directory ∉ given) :
      Observed (calls ++ [.schedule directory]) (some (given ++ [directory]))
  | stopped {calls : List ObserverCall} {given : List String} (h : Observed calls (some given)) :
      Observed (calls ++ [.stop, .join]) none

section Observed
variable {calls before after : List ObserverCall} {given : Option (List String)}
  {directory : String}

theorem Observed.mem_of_split (h : Observed calls given)
    (heq : calls = before ++ .schedule directory :: after) (hsame : .start ∉ after) :
    ∀ ds ∈ given, directory ∈ ds := by
  induction h generalizing after with
  | unobserved => simp at heq
  | started h ih =>
    obtain ⟨rest, -, rfl⟩ := Sequence.split_append_of_not_mem (by simp) heq
    exact absurd (by simp) hsame
  | @scheduled calls ds d h hnew ih =>
    simp only [Option.mem_some_iff, forall_eq']
    rcases Sequence.split_concat heq with ⟨rest, hcalls, rfl⟩ | ⟨-, hd, -⟩
    · have hrest : .start ∉ rest := fun hm => hsame (List.mem_append_left _ hm)
      exact List.mem_append_left _ (ih hcalls hrest ds rfl)
    · obtain rfl := ObserverCall.schedule.inj hd
      exact List.mem_append_right _ (List.mem_singleton_self _)
  | stopped h ih => simp

/-- A directory is given again only to a new observer. -/
theorem Observed.start_between (h : Observed calls given) {between : List ObserverCall}
    (heq : calls = before ++ .schedule directory :: between ++ .schedule directory :: after) :
    .start ∈ between := by
  induction h generalizing after with
  | unobserved => simp at heq
  | started h ih =>
    obtain ⟨rest, hcalls, -⟩ := Sequence.split_append_of_not_mem (by simp) heq
    exact ih hcalls
  | @scheduled calls ds d h hnew ih =>
    rcases Sequence.split_concat heq with ⟨rest, hcalls, -⟩ | ⟨hcalls, hd, -⟩
    · exact ih hcalls
    · obtain rfl := ObserverCall.schedule.inj hd
      by_contra hsame
      exact hnew (h.mem_of_split hcalls.symm hsame ds rfl)
  | stopped h ih =>
    obtain ⟨rest, hcalls, -⟩ := Sequence.split_append_of_not_mem (by simp) heq
    exact ih hcalls

end Observed

def given (w : FileWatcher κ) : Option (List String) :=
  if w.observing then some w.directories else none

/-- The observer is started with the first registration. -/
def starting (w : FileWatcher κ) : List ObserverCall := if w.observing then [] else [.start]

theorem startObserver_spec (w : FileWatcher κ) :
    w.startObserver.observing = true ∧ w.startObserver.calls = w.calls ++ w.starting := by
  unfold startObserver starting
  by_cases h : w.observing = true
  · rw [if_pos h, if_pos h, List.append_nil]
    exact ⟨h, rfl⟩
  · rw [if_neg h, if_neg h]
    exact ⟨rfl, rfl⟩

/-- A registration has told the observer something and leaves these tables. -/
structure Tells (w : FileWatcher κ) (told : List ObserverCall) (directories : List String)
    (callbacks : Table String κ) (v : FileWatcher κ) : Prop where
  observing : v.observing = true
  calls : v.calls = w.calls ++ w.starting ++ told
  directories : v.directories = directories
  callbacks : v.callbacks = callbacks

def directoryOf (w : FileWatcher κ) (path : String) : String :=
  Path.directory (Path.absolute w.cwd path)

/-- What a registration does: its directory is known already, or it is refused, or it is given to
the observer. -/
theorem watch_cases (w : FileWatcher κ) (unwatchable : String → Bool) (path : String) (c : κ) :
    (w.directoryOf path ∈ w.directories ∧ (w.watch unwatchable path c).1 = .ok () ∧
      Tells w [] w.directories (w.callbacks.set (Path.absolute w.cwd path) c)
        (w.watch unwatchable path c).2) ∨
    (w.directoryOf path ∉ w.directories ∧ unwatchable (w.directoryOf path) = true ∧
      (∃ e, (w.watch unwatchable path c).1 = .error e) ∧
      Tells w [] w.directories w.callbacks (w.watch unwatchable path c).2) ∨
    (w.directoryOf path ∉ w.directories ∧ unwatchable (w.directoryOf path) = false ∧
      (w.watch unwatchable path c).1 = .ok () ∧
      Tells w [.schedule (w.directoryOf path)] (w.directories ++ [w.directoryOf path])
        (w.callbacks.set (Path.absolute w.cwd path) c) (w.watch unwatchable path c).2) := by
  obtain ⟨hobserving, hcalls⟩ := { w with attached := true }.startObserver_spec
  obtain ⟨hdirs, -, hcallbacks⟩ := Watch.startObserver_frame { w with attached := true }
  unfold watch schedule directoryOf
  dsimp only
  generalize startObserver { w with attached := true } = v at *
  change v.calls = w.calls ++ w.starting at hcalls
  dsimp only at hdirs hcallbacks
  by_cases hknown : Path.directory (Path.absolute w.cwd path) ∈ w.directories
  · rw [if_pos (by simpa [hdirs] using hknown)]
    exact Or.inl ⟨hknown, rfl, hobserving, by rw [List.append_nil]; exact hcalls, hdirs,
      congrArg (Table.set · _ c) hcallbacks⟩
  · rw [if_neg (by simpa [hdirs] using hknown)]
    by_cases hrefused : unwatchable (Path.directory (Path.absolute w.cwd path)) = true
    · rw [if_pos hrefused]
      exact Or.inr (Or.inl ⟨hknown, hrefused, ⟨_, rfl⟩, hobserving,
        by rw [List.append_nil]; exact hcalls, hdirs, hcallbacks⟩)
    · rw [if_neg hrefused]
      refine Or.inr (Or.inr ⟨hknown, Bool.eq_false_iff.mpr hrefused, rfl, hobserving, ?_, ?_, ?_⟩)
      · exact congrArg (· ++ [ObserverCall.schedule _]) hcalls
      · exact congrArg (· ++ [_]) hdirs
      · exact congrArg (Table.set · _ c) hcallbacks

/-- The tables agree with what observers have been told. -/
structure Orderly (w : FileWatcher κ) : Prop where
  observed : Observed w.calls w.given
  covered (path : String) : w.callbacks.contains path = true →
    Path.directory path ∈ w.directories
  idle : w.observing = false → w.directories = [] ∧ w.callbacks = .empty

theorem orderly_new (cwd : String) : Orderly (.new cwd : FileWatcher κ) where
  observed := .unobserved
  covered path h := by cases h
  idle _ := ⟨rfl, rfl⟩

theorem Orderly.started {w : FileWatcher κ} (hw : Orderly w) :
    Observed (w.calls ++ w.starting) (some w.directories) := by
  have hobserved := hw.observed
  unfold given at hobserved
  unfold starting
  by_cases h : w.observing = true
  · rw [if_pos h] at hobserved ⊢
    rwa [List.append_nil]
  · rw [if_neg h] at hobserved ⊢
    rw [(hw.idle (Bool.eq_false_iff.mpr h)).1]
    exact hobserved.started

theorem Orderly.tells {w v : FileWatcher κ} {told : List ObserverCall} {directories : List String}
    {callbacks : Table String κ} (hv : Tells w told directories callbacks v)
    (hobserved : Observed (w.calls ++ w.starting ++ told) (some directories))
    (hcovered : ∀ path, callbacks.contains path = true → Path.directory path ∈ directories) :
    Orderly v where
  observed := by
    rw [given, if_pos hv.observing, hv.calls, hv.directories]
    exact hobserved
  covered := by
    rw [hv.callbacks, hv.directories]
    exact hcovered
  idle h := by
    rw [hv.observing] at h
    cases h

theorem Orderly.watch {w : FileWatcher κ} (hw : Orderly w) (unwatchable : String → Bool)
    (path : String) (c : κ) : Orderly (w.watch unwatchable path c).2 := by
  have hset {directories : List String} (hsub : w.directories ⊆ directories)
      (hnew : w.directoryOf path ∈ directories) (p : String)
      (hp : (w.callbacks.set (Path.absolute w.cwd path) c).contains p = true) :
      Path.directory p ∈ directories := by
    rcases (Watch.State.contains_set_iff ..).mp hp with hold | rfl
    · exact hsub (hw.covered p hold)
    · exact hnew
  rcases w.watch_cases unwatchable path c with
    ⟨hknown, -, hv⟩ | ⟨-, -, -, hv⟩ | ⟨hnew, -, -, hv⟩
  · refine .tells hv ?_ (hset (List.Subset.refl _) hknown)
    rw [List.append_nil]
    exact hw.started
  · refine .tells hv ?_ hw.covered
    rw [List.append_nil]
    exact hw.started
  · exact .tells hv (hw.started.scheduled hnew)
      (hset (List.subset_append_left _ _) (List.mem_append_right _ (List.mem_singleton_self _)))

theorem stop_spec (w : FileWatcher κ) :
    w.stop.observing = false ∧ w.stop.directories = [] ∧ w.stop.callbacks = .empty ∧
      w.stop.cwd = w.cwd ∧
      w.stop.calls = w.calls ++ if w.observing then [.stop, .join] else [] := by
  unfold stop
  dsimp only
  by_cases h : w.observing = true
  · rw [if_pos h, if_pos h]
    exact ⟨rfl, rfl, rfl, rfl, rfl⟩
  · rw [if_neg h, if_neg h]
    exact ⟨Bool.eq_false_iff.mpr h, rfl, rfl, rfl, (List.append_nil _).symm⟩

theorem Orderly.stop {w : FileWatcher κ} (hw : Orderly w) : Orderly w.stop := by
  obtain ⟨hobserving, hdirs, hcallbacks, -, hcalls⟩ := w.stop_spec
  refine ⟨?_, fun path hp => ?_, fun _ => ⟨hdirs, hcallbacks⟩⟩
  · have hobserved := hw.observed
    unfold given at hobserved ⊢
    rw [hobserving, hcalls]
    by_cases h : w.observing = true
    · rw [if_pos h] at hobserved ⊢
      exact hobserved.stopped
    · rw [if_neg h] at hobserved ⊢
      rwa [List.append_nil]
  · rw [hcallbacks] at hp
    cases hp

theorem Orderly.queue {w : FileWatcher κ} (hw : Orderly w) (queued : List String) :
    Orderly { w with queued := queued } := ⟨hw.observed, hw.covered, hw.idle⟩

theorem perform_watch (w : FileWatcher κ) (unwatchable : String → Bool) (path : String) (c : κ) :
    (w.perform (.watch unwatchable path c)).2 = (w.watch unwatchable path c).2 := by
  unfold perform
  dsimp only
  split
  · next heq => rw [heq]
  · next heq => rw [heq]

theorem perform_stop (w : FileWatcher κ) : (w.perform .stop).2 = w.stop := rfl

theorem Orderly.perform {w : FileWatcher κ} (hw : Orderly w) (a : Act κ) :
    Orderly (w.perform a).2 := by
  cases a with
  | watch unwatchable path c =>
    rw [perform_watch]
    exact hw.watch unwatchable path c
  | stop => exact hw.stop
  | dispatch path =>
    unfold FileWatcher.perform dispatch
    dsimp only
    split_ifs
    · exact hw
    · exact hw
    · exact hw.queue _
  | turn =>
    unfold FileWatcher.perform turn
    cases w.queued with
    | nil => exact hw
    | cons path rest => exact hw.queue rest

theorem Life.orderly {cwd : String} {h : History κ} {w : FileWatcher κ} (life : Life cwd h w) :
    Orderly w := by
  induction life with
  | new => exact orderly_new cwd
  | next _ a ih => exact ih.perform a

/-- A registration fails exactly if its directory is not known and is refused. It leaves the tables
as they were then. -/
theorem watch_error_iff (w : FileWatcher κ) (unwatchable : String → Bool) (path : String) (c : κ) :
    ((∃ e, (w.watch unwatchable path c).1 = .error e) ↔
      w.directoryOf path ∉ w.directories ∧ unwatchable (w.directoryOf path) = true) ∧
    ∀ e, (w.watch unwatchable path c).1 = .error e →
      (w.watch unwatchable path c).2.callbacks = w.callbacks ∧
        (w.watch unwatchable path c).2.directories = w.directories := by
  rcases w.watch_cases unwatchable path c with
    ⟨hknown, hok, -⟩ | ⟨hnew, hrefused, herror, hv⟩ | ⟨-, hcan, hok, -⟩
  · simp [hok, hknown]
  · exact ⟨iff_of_true herror ⟨hnew, hrefused⟩, fun _ _ => ⟨hv.callbacks, hv.directories⟩⟩
  · simp [hok, hcan]

theorem Orderly.watch_idle {w : FileWatcher κ} (hw : Orderly w) (hidle : w.observing = false)
    (unwatchable : String → Bool) (path : String) (c : κ) :
    (w.watch unwatchable path c).2.calls = w.calls ++ .start ::
      if unwatchable (w.directoryOf path) then [] else [.schedule (w.directoryOf path)] := by
  have hstarting : w.starting = [.start] := if_neg (Bool.eq_false_iff.mp hidle)
  rcases w.watch_cases unwatchable path c with
    ⟨hknown, -, -⟩ | ⟨-, hrefused, -, hv⟩ | ⟨-, hcan, -, hv⟩
  · rw [(hw.idle hidle).1] at hknown
    cases hknown
  · rw [hv.calls, hstarting, hrefused, if_pos rfl, List.append_nil]
  · rw [hv.calls, hstarting, hcan, if_neg Bool.false_ne_true, List.append_assoc]
    rfl

/-- **The tables of a watcher**, after any registrations and stops. Its directories are those that
the current observer has been given, and no observer is given a directory twice. The directory of
every registered file is one of them. A registration that fails, which it does exactly if its
directory is new and refused, adds nothing. After a stop both tables are empty, as they are whenever
there is no observer, and the next registration starts one and gives it the directory. -/
theorem directories_observed {cwd : String} {h : History κ} {w : FileWatcher κ}
    (life : Life cwd h w) :
    Observed w.calls w.given ∧
    (∀ before between after directory,
      w.calls = before ++ .schedule directory :: between ++ .schedule directory :: after →
        .start ∈ between) ∧
    (∀ path, w.callbacks.contains path = true → Path.directory path ∈ w.directories) ∧
    (∀ unwatchable path c,
      ((∃ e, (w.watch unwatchable path c).1 = .error e) ↔
        w.directoryOf path ∉ w.directories ∧ unwatchable (w.directoryOf path) = true) ∧
      ∀ e, (w.watch unwatchable path c).1 = .error e →
        (w.watch unwatchable path c).2.callbacks = w.callbacks ∧
          (w.watch unwatchable path c).2.directories = w.directories) ∧
    (w.stop.observing = false ∧ w.stop.directories = [] ∧ w.stop.callbacks = .empty) ∧
    (w.observing = false → w.directories = [] ∧ w.callbacks = .empty ∧
      ∀ unwatchable path c, (w.watch unwatchable path c).2.calls = w.calls ++ .start ::
        if unwatchable (w.directoryOf path) then [] else [.schedule (w.directoryOf path)]) := by
  have hw := life.orderly
  obtain ⟨hobserving, hdirsStop, hcallbacksStop, -⟩ := w.stop_spec
  refine ⟨hw.observed, fun _ _ _ _ => hw.observed.start_between, hw.covered, w.watch_error_iff,
    ⟨hobserving, hdirsStop, hcallbacksStop⟩, fun hidle => ?_⟩
  obtain ⟨hdirs, hcallbacks⟩ := hw.idle hidle
  exact ⟨hdirs, hcallbacks, hw.watch_idle hidle⟩

/-- A directory that is refused at first, then watched, and watched again after a stop. -/
def restarted : FileWatcher Nat :=
  let w := (FileWatcher.new "/" : FileWatcher Nat)
  let w := (w.watch (fun _ => true) "/in/a" 0).2
  let w := (w.watch (fun _ => false) "/in/a" 1).2
  let w := (w.watch (fun _ => false) "/in/b" 2).2
  (w.stop.watch (fun _ => false) "/in/b" 3).2

theorem directories_observed_restarted :
    ∃ h, Life "/" h restarted ∧
      restarted.calls =
        [.start, .schedule "/in"] ++ [.stop, .join] ++ [.start, .schedule "/in"] ∧
      Observed restarted.calls (some ["/in"]) ∧ Path.directory "/in/b" ∈ restarted.directories := by
  have h₀ : Life "/" [] (.new "/" : FileWatcher Nat) := .new
  have h₁ := h₀.next (.watch (fun _ => true) "/in/a" 0)
  have h₂ := h₁.next (.watch (fun _ => false) "/in/a" 1)
  have h₃ := h₂.next (.watch (fun _ => false) "/in/b" 2)
  have h₄ := (h₃.next .stop).next (.watch (fun _ => false) "/in/b" 3)
  simp only [perform_watch, perform_stop] at h₄
  obtain ⟨h, life⟩ : ∃ h, Life "/" h restarted := ⟨_, h₄⟩
  obtain ⟨hobserved, -, hcovered, -⟩ := directories_observed life
  have hgiven : restarted.given = some ["/in"] := by decide +kernel
  rw [hgiven] at hobserved
  exact ⟨h, life, by decide +kernel, hobserved, hcovered "/in/b" (by decide +kernel)⟩

end TemplateHost.FileWatcher
