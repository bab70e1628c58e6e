import TemplateHost.Proofs.Sequence
import TemplateHost.Proofs.Watch.Keys

/-!
# Late changes

A change is handed to the event loop if its file is watched, and the callback is looked up only when
the loop comes to the change. In between the watcher may be stopped and started again. What a change
then starts is told by the history alone: the callback of the last registration of its file since
the watcher last stopped. If there is none the lookup fails, and this happens to exactly the changes
that were handed over before a stop and whose files have not been registered again.
-/
namespace TemplateHost.FileWatcher
variable {κ : Type}

/-- What the owner of a watcher, its observer and the event loop do. -/
inductive Act (κ : Type) where
  | watch (unwatchable : String → Bool) (path : String) (callback : κ)
  | stop
  | dispatch (path : String)
  /-- The event loop runs the first change that it has been handed. -/
  | turn

inductive Event (κ : Type) where
  | registered (path : String) (callback : κ)
  | stopped
  | queued (path : String)
  | ran (path : String) (result : Except Fault κ)

abbrev History (κ : Type) := List (Event κ)

namespace Event

def next (path : String) (last : Option κ) : Event κ → Option κ
  | .registered p c => if p = path then some c else last
  | .stopped => none
  | .queued _ | .ran .. => last

def queued? : Event κ → Option String
  | .queued path => some path
  | .registered .. | .stopped | .ran .. => none

def ran? : Event κ → Option String
  | .ran path _ => some path
  | .registered .. | .stopped | .queued _ => none

end Event

namespace History

/-- The callback of the last registration of a file since the watcher last stopped. -/
def registrant (h : History κ) (path : String) : Option κ := h.foldl (Event.next path) none

/-- The changes that the event loop has been handed and those that it has run, in order. -/
def handed (h : History κ) : List String := h.filterMap Event.queued?

def done (h : History κ) : List String := h.filterMap Event.ran?

theorem registrant_concat (h : History κ) (e : Event κ) (path : String) :
    registrant (h ++ [e]) path = e.next path (registrant h path) := List.foldl_concat ..

theorem registered_of_registrant {h₁ h₂ : History κ} {path : String} {c : κ}
    (hc : registrant (h₁ ++ .stopped :: h₂) path = some c) : .registered path c ∈ h₂ := by
  induction h₂ using List.reverseRecOn with
  | nil =>
    rw [registrant_concat] at hc
    cases hc
  | append_singleton h₂ e ih =>
    rw [← List.cons_append, ← List.append_assoc, registrant_concat] at hc
    cases e with
    | registered p d =>
      change (if p = path then some d else _) = some c at hc
      by_cases hp : p = path
      · rw [if_pos hp] at hc
        obtain rfl := Option.some.inj hc
        rw [hp]
        exact List.mem_append_right h₂ (List.mem_singleton_self _)
      · rw [if_neg hp] at hc
        exact List.mem_append_left _ (ih hc)
    | stopped => cases hc
    | queued p => exact List.mem_append_left _ (ih hc)
    | ran p r => exact List.mem_append_left _ (ih hc)

theorem exists_stop {h₁ h₂ : History κ} {path : String}
    (hbefore : registrant h₁ path ≠ none) (hafter : registrant (h₁ ++ h₂) path = none) :
    ∃ a b, h₂ = a ++ .stopped :: b ∧ ∀ c, .registered path c ∉ b := by
  induction h₂ using List.reverseRecOn with
  | nil => exact absurd (List.append_nil h₁ ▸ hafter) hbefore
  | append_singleton h₂ e ih =>
    rw [← List.append_assoc, registrant_concat] at hafter
    have hlater (he : ∀ c, e ≠ .registered path c) (hnone : registrant (h₁ ++ h₂) path = none) :
        ∃ a b, h₂ ++ [e] = a ++ .stopped :: b ∧ ∀ c, .registered path c ∉ b := by
      obtain ⟨a, b, rfl, hb⟩ := ih hnone
      refine ⟨a, b ++ [e], by rw [List.append_assoc, List.cons_append], fun c hc => ?_⟩
      rcases List.mem_append.mp hc with hold | hnew
      · exact hb c hold
      · exact he c (List.mem_singleton.mp hnew).symm
    cases e with
    | registered p d =>
      change (if p = path then some d else _) = none at hafter
      by_cases hp : p = path
      · rw [if_pos hp] at hafter
        cases hafter
      · rw [if_neg hp] at hafter
        refine hlater (fun c hc => hp ?_) hafter
        exact (Event.registered.inj hc).1
    | stopped => exact ⟨h₂, [], rfl, fun _ => List.not_mem_nil⟩
    | queued p => exact hlater nofun hafter
    | ran p r => exact hlater nofun hafter

end History

def turn (w : FileWatcher κ) : Option (String × Except Fault κ) × FileWatcher κ :=
  match w.queued with
  | [] => (none, w)
  | path :: rest => (some (path, w.callback path), { w with queued := rest })

def perform (w : FileWatcher κ) : Act κ → History κ × FileWatcher κ
  | .watch unwatchable path c =>
    match w.watch unwatchable path c with
    | (.ok (), v) => ([.registered (Path.absolute w.cwd path) c], v)
    | (.error _, v) => ([], v)
  | .stop => ([.stopped], w.stop)
  | .dispatch path =>
    match w.dispatch path with
    | (.queued, v) => ([.queued (Path.absolute w.cwd path)], v)
    | (.ignored, v) => ([], v)
    | (.dropped _, v) => ([], v)
  | .turn =>
    match w.turn with
    | (some (path, r), v) => ([.ran path r], v)
    | (none, v) => ([], v)

/-- What happens to a new watcher, in any order. -/
inductive Life (cwd : String) : History κ → FileWatcher κ → Prop where
  | new : Life cwd [] (.new cwd)
  | next {h : History κ} {w : FileWatcher κ} (life : Life cwd h w) (a : Act κ) :
      Life cwd (h ++ (w.perform a).1) (w.perform a).2

/-- The event loop runs all that it has been handed by running the first change again and again. -/
theorem takeQueued_eq (w : FileWatcher κ) :
    w.takeQueued = match w.turn with
      | (none, v) => ([], v)
      | (some (_, r), v) => (r :: v.takeQueued.1, v.takeQueued.2) := by
  unfold takeQueued turn
  cases hq : w.queued with
  | nil =>
    change ([], { w with queued := [] }) = ([], w)
    rw [← hq]
  | cons path rest => rfl

theorem queued_startObserver (w : FileWatcher κ) : w.startObserver.queued = w.queued := by
  unfold startObserver
  split <;> rfl

theorem queued_schedule {w v : FileWatcher κ} {unwatchable : String → Bool} {directory : String}
    (hv : w.schedule unwatchable directory = .ok v) : v.queued = w.queued := by
  unfold schedule at hv
  split at hv
  · rw [← Except.ok.inj hv]
  · split at hv
    · cases hv
    · rw [← Except.ok.inj hv]
      rfl

theorem queued_watch (w : FileWatcher κ) (unwatchable : String → Bool) (path : String) (c : κ) :
    (w.watch unwatchable path c).2.queued = w.queued := by
  unfold watch
  dsimp only
  split
  · rename_i v hv
    exact (queued_schedule hv).trans (queued_startObserver _)
  · exact queued_startObserver _

theorem stop_frame (w : FileWatcher κ) :
    w.stop.callbacks = .empty ∧ w.stop.queued = w.queued := by
  unfold stop
  dsimp only
  split <;> exact ⟨rfl, rfl⟩

/-- What one act does to callbacks and to the changes that the event loop has been handed. -/
inductive Effect (w : FileWatcher κ) : History κ → FileWatcher κ → Prop where
  | nothing {v : FileWatcher κ} (hc : v.callbacks = w.callbacks) (hq : v.queued = w.queued) :
      Effect w [] v
  | registered {v : FileWatcher κ} (path : String) (c : κ)
      (hc : v.callbacks = w.callbacks.set path c) (hq : v.queued = w.queued) :
      Effect w [.registered path c] v
  | stopped {v : FileWatcher κ} (hc : v.callbacks = .empty) (hq : v.queued = w.queued) :
      Effect w [.stopped] v
  | queued {v : FileWatcher κ} (path : String) (hwatched : w.callbacks.contains path = true)
      (hc : v.callbacks = w.callbacks) (hq : v.queued = w.queued ++ [path]) :
      Effect w [.queued path] v
  | ran {v : FileWatcher κ} (path : String) (hc : v.callbacks = w.callbacks)
      (hq : w.queued = path :: v.queued) : Effect w [.ran path (w.callback path)] v

theorem effect_watch (w : FileWatcher κ) (unwatchable : String → Bool) (path : String) (c : κ) :
    Effect w (w.perform (.watch unwatchable path c)).1
      (w.perform (.watch unwatchable path c)).2 := by
  have hq := w.queued_watch unwatchable path c
  have hframe := (w.watch_frame unwatchable path c).2
  rcases hw : w.watch unwatchable path c with ⟨r, v⟩
  rw [hw] at hq hframe
  simp only [perform, hw]
  rcases hframe with ⟨hok, hc⟩ | ⟨⟨e, he⟩, hc⟩
  · obtain rfl : r = .ok () := hok
    exact .registered _ c hc hq
  · obtain rfl : r = .error e := he
    exact .nothing hc hq

theorem effect_dispatch (w : FileWatcher κ) (path : String) :
    Effect w (w.perform (.dispatch path)).1 (w.perform (.dispatch path)).2 := by
  unfold perform dispatch
  dsimp only
  by_cases hwatched : w.callbacks.contains (Path.absolute w.cwd path) = true
  · cases hattached : w.attached with
    | false =>
      rw [hwatched]
      exact .nothing rfl rfl
    | true =>
      cases hclosed : w.loopClosed with
      | true =>
        rw [hwatched]
        exact .nothing rfl rfl
      | false =>
        rw [hwatched]
        exact .queued _ hwatched rfl rfl
  · rw [Bool.eq_false_iff.mpr hwatched]
    exact .nothing rfl rfl

theorem effect_perform (w : FileWatcher κ) (a : Act κ) :
    Effect w (w.perform a).1 (w.perform a).2 := by
  cases a with
  | watch unwatchable path c => exact w.effect_watch unwatchable path c
  | stop => exact .stopped w.stop_frame.1 w.stop_frame.2
  | dispatch path => exact w.effect_dispatch path
  | turn =>
    unfold perform turn
    cases hq : w.queued with
    | nil => exact .nothing rfl rfl
    | cons path rest => exact .ran path rfl hq

/-- The callbacks are those of the history, and the changes that have been handed over are run in
order, each with the callback that its file has by then. -/
structure Accounted (h : History κ) (w : FileWatcher κ) : Prop where
  callbacks (path : String) : w.callbacks.get? path = h.registrant path
  order : h.done ++ w.queued = h.handed
  queued (before later : History κ) (path : String) :
    h = before ++ .queued path :: later → before.registrant path ≠ none
  ran (before later : History κ) (path : String) (r : Except Fault κ) :
    h = before ++ .ran path r :: later → (∃ rest, before.handed = before.done ++ path :: rest) ∧
      r = match before.registrant path with
        | some c => .ok c
        | none => .error (.missingKey (Text.quoted path))

theorem Accounted.concat {h : History κ} {w v : FileWatcher κ} (ha : Accounted h w)
    (e : Event κ)
    (hcallbacks : ∀ path, v.callbacks.get? path = e.next path (w.callbacks.get? path))
    (horder : History.done (h ++ [e]) ++ v.queued = History.handed (h ++ [e]))
    (hqueued : ∀ path, e = .queued path → h.registrant path ≠ none)
    (hran : ∀ path r, e = .ran path r →
      (∃ rest, h.handed = h.done ++ path :: rest) ∧ r = w.callback path) :
    Accounted (h ++ [e]) v where
  callbacks path := by rw [hcallbacks, History.registrant_concat, ha.callbacks]
  order := horder
  queued before later path heq := by
    rcases Sequence.split_concat heq with ⟨rest, hh, -⟩ | ⟨rfl, hx, -⟩
    · exact ha.queued before rest path hh
    · exact hqueued path hx.symm
  ran before later path r heq := by
    rcases Sequence.split_concat heq with ⟨rest, hh, -⟩ | ⟨rfl, hx, -⟩
    · exact ha.ran before rest path r hh
    · obtain ⟨hturn, hr⟩ := hran path r hx.symm
      refine ⟨hturn, ?_⟩
      rw [hr, ← ha.callbacks]
      rfl

theorem Accounted.effect {h es : History κ} {w v : FileWatcher κ} (ha : Accounted h w)
    (effect : Effect w es v) : Accounted (h ++ es) v := by
  have hdone (e : Event κ) : History.done (h ++ [e]) = h.done ++ History.done [e] :=
    List.filterMap_append
  have hhanded (e : Event κ) : History.handed (h ++ [e]) = h.handed ++ History.handed [e] :=
    List.filterMap_append
  cases effect with
  | nothing hc hq =>
    rw [List.append_nil]
    exact ⟨fun path => hc ▸ ha.callbacks path, hq ▸ ha.order, ha.queued, ha.ran⟩
  | registered path c hc hq =>
    refine ha.concat _ (fun p => ?_) ?_ nofun nofun
    · rw [hc]
      change _ = if path = p then some c else _
      by_cases hp : path = p
      · rw [if_pos hp, hp, Table.get?_set_self]
      · rw [if_neg hp, Table.get?_set_ne _ (Ne.symm hp)]
    · rw [hdone, hhanded, hq, ← ha.order]
      exact (List.append_nil _).symm ▸ (List.append_nil _).symm
  | stopped hc hq =>
    refine ha.concat _ (fun p => ?_) ?_ nofun nofun
    · rw [hc]
      rfl
    · rw [hdone, hhanded, hq, ← ha.order]
      exact (List.append_nil _).symm ▸ (List.append_nil _).symm
  | queued path hwatched hc hq =>
    refine ha.concat _ (fun p => by rw [hc]; rfl) ?_ (fun p hp => ?_) nofun
    · rw [hdone, hhanded, hq, ← ha.order,
        show History.done [Event.queued path] = ([] : List String) from rfl, List.append_nil,
        List.append_assoc]
      rfl
    · obtain rfl := Event.queued.inj hp
      rw [← ha.callbacks]
      exact Option.ne_none_iff_isSome.mpr hwatched
  | ran path hc hq =>
    refine ha.concat _ (fun p => by rw [hc]; rfl) ?_ nofun fun p r hp => ?_
    · rw [hdone, hhanded, ← ha.order, hq, List.append_assoc]
      exact (List.append_nil _).symm
    · obtain ⟨rfl, rfl⟩ := Event.ran.inj hp
      exact ⟨⟨v.queued, by rw [← ha.order, hq]⟩, rfl⟩

theorem Life.accounted {cwd : String} {h : History κ} {w : FileWatcher κ}
    (life : Life cwd h w) : Accounted h w := by
  induction life with
  | new => exact ⟨fun _ => rfl, rfl, by simp, by simp⟩
  | next _ a ih => exact ih.effect (effect_perform _ a)

/-- The file of a change was watched when the change was handed over. -/
theorem Accounted.queued_of_ran {h before later : History κ} {w : FileWatcher κ}
    {path : String} {r : Except Fault κ} (ha : Accounted h w)
    (heq : h = before ++ .ran path r :: later) :
    ∃ b₁ b₂, before = b₁ ++ .queued path :: b₂ ∧ History.registrant b₁ path ≠ none := by
  obtain ⟨rest, hrest⟩ := (ha.ran before later path r heq).1
  have hmem : path ∈ before.handed := by
    rw [hrest]
    exact List.mem_append_right _ List.mem_cons_self
  obtain ⟨e, he, hpath⟩ := List.mem_filterMap.mp hmem
  obtain ⟨b₁, b₂, hsplit⟩ := List.append_of_mem he
  have hqueued : e = .queued path := by
    cases e with
    | queued p => rw [Option.some.inj hpath]
    | registered | stopped | ran => cases hpath
  rw [hqueued] at hsplit
  refine ⟨b₁, b₂, hsplit, ha.queued b₁ (b₂ ++ .ran path r :: later) path ?_⟩
  rw [heq, hsplit, List.append_assoc, List.cons_append]

/-- The lookup for a change fails only after a stop, and the file has not been registered again. -/
theorem Accounted.stopped_of_failed {h before later : History κ} {w : FileWatcher κ}
    {path : String} {r : Except Fault κ} (ha : Accounted h w)
    (heq : h = before ++ .ran path r :: later) (hnone : before.registrant path = none) :
    ∃ b₁ b₂, before = b₁ ++ .stopped :: b₂ ∧ .queued path ∈ b₁ ∧ .queued path ∉ b₂ ∧
      ∀ c, .registered path c ∉ b₂ := by
  obtain ⟨a, b, hab, hwatched⟩ := ha.queued_of_ran heq
  rw [hab, List.append_cons] at hnone
  have hstill : History.registrant (a ++ [.queued path]) path ≠ none := by
    rw [History.registrant_concat]
    exact hwatched
  obtain ⟨b₁, b₂, rfl, hunregistered⟩ := History.exists_stop hstill hnone
  refine ⟨a ++ .queued path :: b₁, b₂, ?_, ?_, fun hm => ?_, hunregistered⟩
  · rw [hab, List.append_assoc, List.cons_append]
  · exact List.mem_append_right a List.mem_cons_self
  · -- A change is handed over only if its file is watched, so after a registration.
    obtain ⟨m, n, rfl⟩ := List.append_of_mem hm
    have hagain : History.registrant ((a ++ .queued path :: b₁) ++ .stopped :: m) path ≠ none := by
      refine ha.queued _ (n ++ .ran path r :: later) path ?_
      rw [heq, hab]
      simp only [List.append_assoc, List.cons_append]
    obtain ⟨c, hc⟩ := Option.ne_none_iff_exists'.mp hagain
    exact hunregistered c (List.mem_append_left _ (History.registered_of_registrant hc))

/-- What a change starts when the event loop runs it, in every order of steps: the callback of the
last registration of its file since the last stop. The run raises exactly if the watcher was stopped
after the change had been handed over and the file has not been registered since. No callback that
was registered before a stop is started after it. -/
theorem queued_change_starts_iff {cwd : String} {h before later : History κ}
    {w : FileWatcher κ} {path : String} {r : Except Fault κ} (life : Life cwd h w)
    (heq : h = before ++ .ran path r :: later) :
    (∀ c, r = .ok c ↔ before.registrant path = some c) ∧
    (∀ e, r = .error e ↔ e = .missingKey (Text.quoted path) ∧
      ∃ b₁ b₂, before = b₁ ++ .stopped :: b₂ ∧ .queued path ∈ b₁ ∧ .queued path ∉ b₂ ∧
        ∀ c, .registered path c ∉ b₂) ∧
    ∀ b₁ b₂ c, before = b₁ ++ .stopped :: b₂ → r = .ok c → .registered path c ∈ b₂ := by
  have ha := life.accounted
  have hr := (ha.ran before later path r heq).2
  have hstarts (c : κ) : r = .ok c ↔ before.registrant path = some c := by
    rw [hr]
    cases before.registrant path with
    | none => exact ⟨nofun, nofun⟩
    | some d =>
      exact ⟨fun h => congrArg some (Except.ok.inj h),
        fun h => congrArg Except.ok (Option.some.inj h)⟩
  refine ⟨hstarts, fun e => ⟨fun he => ?_, ?_⟩, fun b₁ b₂ c hstop hc => ?_⟩
  · cases hnone : before.registrant path with
    | none =>
      rw [hnone] at hr
      exact ⟨Except.error.inj (he.symm.trans hr), ha.stopped_of_failed heq hnone⟩
    | some c =>
      rw [(hstarts c).mpr hnone] at he
      cases he
  · rintro ⟨rfl, b₁, b₂, hstop, -, -, hunregistered⟩
    cases hnone : before.registrant path with
    | none => rw [hr, hnone]
    | some c =>
      rw [hstop] at hnone
      exact absurd (History.registered_of_registrant hnone) (hunregistered c)
  · rw [hstarts, hstop] at hc
    exact History.registered_of_registrant hc

/-- The watcher stops between a change and its turn: the run raises. -/
theorem queued_change_starts_iff_stopped :
    ∃ w : FileWatcher Nat,
      Life "/" [.registered "/a" 0, .queued "/a", .stopped,
        .ran "/a" (.error (.missingKey (Text.quoted "/a")))] w ∧
      ∃ b₁ b₂ : History Nat, [.registered "/a" 0, .queued "/a", .stopped] =
          b₁ ++ .stopped :: b₂ ∧ .queued "/a" ∈ b₁ ∧ .queued "/a" ∉ b₂ ∧
        ∀ c, .registered "/a" c ∉ b₂ := by
  have h₀ : Life "/" [] (.new "/" : FileWatcher Nat) := .new
  have h₁ := h₀.next (.watch (fun _ => false) "a" 0)
  have h₂ := h₁.next (.dispatch "a")
  have h₃ := h₂.next .stop
  have h₄ := h₃.next .turn
  have hlife : ∃ w : FileWatcher Nat, Life "/" [.registered "/a" 0, .queued "/a", .stopped,
      .ran "/a" (.error (.missingKey (Text.quoted "/a")))] w := ⟨_, h₄⟩
  obtain ⟨w, hw⟩ := hlife
  have heq : [Event.registered "/a" 0, .queued "/a", .stopped,
      .ran "/a" (.error (.missingKey (Text.quoted "/a")))] =
      [.registered "/a" 0, .queued "/a", .stopped] ++
        .ran "/a" (.error (.missingKey (Text.quoted "/a"))) :: [] := rfl
  exact ⟨w, hw, (((queued_change_starts_iff hw heq).2.1 _).mp rfl).2⟩

end TemplateHost.FileWatcher
