import Mathlib.Algebra.Order.Group.Int
import Mathlib.Algebra.Order.Group.Unbundled.Basic
import TemplateHost.Proofs.Watch.Keys

/-!
# Debouncing

The times at which changes were last accepted are shared by all schedulers and move while tasks are
suspended. A file's own readings are what happens to its time: it is registered, changes of it are
heard, and everything is forgotten when watching stops. In every order of steps these readings alone
decide which changes of the file are accepted.
-/
namespace TemplateHost.Watch
variable {T ρ : Type}

/-- Something that happens to schedulers. -/
inductive Act (T ρ : Type) where
  | enlist (inputDir : String) (debounce : T)
  /-- From now on other paths cannot be watched. -/
  | refuse (paths : List String)
  | register (k : SchedulerId) (now : T) (relative : String)
  | report (c : Callback)
  /-- A notification starts: it reads the clock. -/
  | hear (n : NotificationId) (now : T)
  | resume (n : NotificationId)
  | finish (p : PassId) (result : Option ρ)
  | close

/-- What happens to the time of a file. -/
inductive Reading (T : Type) where
  | registered (now : T)
  | heard (now interval : T) (accepted : Bool)
  | forgotten
deriving DecidableEq

namespace Reading

def next (last : Option T) : Reading T → Option T
  | .registered now => some now
  | .heard now _ true => some now
  | .heard _ _ false => last
  | .forgotten => none

/-- The reading that becomes the time of the file. -/
def taken? : Reading T → Option T
  | .registered now => some now
  | .heard now _ true => some now
  | .heard _ _ false => none
  | .forgotten => none

/-- Leaves out whether a change was accepted. -/
def unanswered : Reading T → Reading T
  | .registered now => .registered now
  | .heard now interval _ => .heard now interval false
  | .forgotten => .forgotten

/-- The time of a file after readings: the last one taken since everything was last forgotten. -/
def latest (last : Option T) (readings : List (Reading T)) : Option T := readings.foldl next last

theorem next_of_taken {r : Reading T} {t : T} (hr : r.taken? = some t) (last : Option T) :
    r.next last = some t := by
  cases r with
  | registered now => exact hr
  | heard now interval accepted =>
    cases accepted with
    | true => exact hr
    | false => cases hr
  | forgotten => cases hr

section Fair
variable [Sub T] [LT T] [DecidableLT T]

/-- Files are registered only if they have no time, and changes of them are accepted if they are due
by that time. -/
def Fair (last : Option T) : Reading T → Prop
  | .registered _ => last = none
  | .heard now interval accepted => accepted = State.isDue last now interval
  | .forgotten => True

def AllFair : Option T → List (Reading T) → Prop
  | _, [] => True
  | last, r :: readings => r.Fair last ∧ AllFair (r.next last) readings

theorem allFair_append {last : Option T} {before later : List (Reading T)} :
    AllFair last (before ++ later) ↔ AllFair last before ∧ AllFair (latest last before) later := by
  induction before generalizing last with
  | nil => exact (iff_of_eq (true_and _)).symm
  | cons r before ih =>
    change r.Fair last ∧ AllFair (r.next last) (before ++ later) ↔ _
    rw [ih, ← and_assoc]
    rfl

/-- What was heard determines what was accepted. -/
theorem AllFair.determined {last : Option T} {readings others : List (Reading T)}
    (h : AllFair last readings) (h' : AllFair last others)
    (heard : readings.map unanswered = others.map unanswered) : readings = others := by
  induction readings generalizing last others with
  | nil => exact (List.map_eq_nil_iff.mp heard.symm).symm
  | cons r readings ih =>
    cases others with
    | nil => cases heard
    | cons r' others =>
      obtain ⟨hhead, htail⟩ := List.cons.inj heard
      have hsame : r = r' := by
        cases r with
        | registered now =>
          cases r' with
          | registered now' => exact hhead
          | heard | forgotten => cases hhead
        | heard now interval accepted =>
          cases r' with
          | heard now' interval' accepted' =>
            obtain ⟨rfl, rfl, -⟩ := Reading.heard.inj hhead
            rw [show accepted = _ from h.1, show accepted' = _ from h'.1]
          | registered | forgotten => cases hhead
        | forgotten =>
          cases r' with
          | forgotten => rfl
          | registered | heard => cases hhead
      rw [← hsame] at h' ⊢
      rw [ih h.2 h'.2 htail]

end Fair

section Spacing
variable [AddCommGroup T] [LinearOrder T] [IsOrderedAddMonoid T]

theorem isDue_iff (last : Option T) (now interval : T) :
    State.isDue last now interval = true ↔ ∀ t, last = some t → t + interval ≤ now := by
  cases last with
  | none => exact iff_of_true rfl nofun
  | some t =>
    have hdue : State.isDue (some t) now interval = true ↔ ¬now - t < interval := by
      simp [State.isDue]
    rw [hdue, not_lt, le_sub_iff_add_le, add_comm]
    exact ⟨fun h _ ht => Option.some.inj ht ▸ h, fun h => h t rfl⟩

theorem AllFair.latest_ge {last : Option T} {readings : List (Reading T)}
    (h : AllFair last readings)
    (hpositive : ∀ now interval accepted, .heard now interval accepted ∈ readings → 0 < interval)
    (hkept : .forgotten ∉ readings) {t : T} (ht : last = some t) :
    ∃ t', latest last readings = some t' ∧ t ≤ t' := by
  induction readings generalizing last t with
  | nil => exact ⟨t, ht, le_rfl⟩
  | cons r readings ih =>
    have hstep : ∃ u, r.next last = some u ∧ t ≤ u := by
      cases r with
      | registered now =>
        have hnone : last = none := h.1
        rw [hnone] at ht
        cases ht
      | heard now interval accepted =>
        cases accepted with
        | false => exact ⟨t, ht, le_rfl⟩
        | true =>
          have hdue := (isDue_iff last now interval).mp (Eq.symm h.1) t ht
          have hlt := hpositive now interval true List.mem_cons_self
          exact ⟨now, rfl, (le_add_of_nonneg_right hlt.le).trans hdue⟩
      | forgotten => exact absurd List.mem_cons_self hkept
    obtain ⟨u, hu, htu⟩ := hstep
    obtain ⟨t', ht', hle⟩ := ih h.2
      (fun now interval accepted hm => hpositive now interval accepted (List.mem_cons_of_mem r hm))
      (fun hm => hkept (List.mem_cons_of_mem r hm)) hu
    exact ⟨t', ht', htu.trans hle⟩

end Spacing

end Reading

namespace State

/-- Whether a notification has been accepted and has yet to go on. -/
def isAccepted (s : State T ρ) (n : NotificationId) : Bool :=
  match s.notifications[n]? with
  | some ⟨_, .accepted⟩ => true
  | _ => false

section Run
variable [Sub T] [LT T] [DecidableLT T]

def hear (s : State T ρ) (n : NotificationId) (now : T) : State T ρ :=
  match s.notifications[n]? with
  | some ⟨_, .arrived⟩ => (s.accept n now).2
  | _ => s

def resume (s : State T ρ) (n : NotificationId) : State T ρ :=
  match s.notifications[n]? with
  | some ⟨_, .accepted⟩ | some ⟨_, .waiting⟩ => (s.proceed n).2.2
  | _ => s

def perform (s : State T ρ) : Act T ρ → State T ρ
  | .enlist inputDir debounce => (s.addScheduler inputDir debounce).2
  | .refuse paths => { s with watcher := s.watcher.refuse paths }
  | .register k now relative => (s.watch k now relative).2.2
  | .report c => (s.notify c).2
  | .hear n now => s.hear n now
  | .resume n => s.resume n
  | .finish p result => s.endPass p result
  | .close => s.close

def after (s : State T ρ) (acts : List (Act T ρ)) : State T ρ := acts.foldl perform s

/-- A source is registered, unless it is known or refused. -/
def registration (s : State T ρ) (f : String) (k : SchedulerId) (now : T) (relative : String) :
    List (Reading T) :=
  match s.schedulers[k]? with
  | some x =>
    if s.fileOf x.inputDir relative = f ∧ (s.watch k now relative).1 = true then
      [.registered now]
    else []
  | none => []

/-- A change is heard, at the interval of the scheduler that it was reported to. -/
def hearing (s : State T ρ) (f : String) (n : NotificationId) (now : T) : List (Reading T) :=
  match s.notifications[n]? with
  | some ⟨c, .arrived⟩ =>
    match s.schedulers[c.scheduler]? with
    | some x =>
      if c.file = f then [.heard now x.debounce ((s.accept n now).2.isAccepted n)] else []
    | none => []
  | _ => []

/-- What an act does to the time of a file. -/
def readings (s : State T ρ) (f : String) : Act T ρ → List (Reading T)
  | .register k now relative => s.registration f k now relative
  | .hear n now => s.hearing f n now
  | .close => [.forgotten]
  | .enlist .. | .refuse _ | .report _ | .resume _ | .finish .. => []

def trace (s : State T ρ) (f : String) : List (Act T ρ) → List (Reading T)
  | [] => []
  | a :: acts => s.readings f a ++ trace (s.perform a) f acts

variable {s : State T ρ} {n : NotificationId} {c : Callback} {st : Stage ρ} {x : Scheduler T}

omit [Sub T] [LT T] [DecidableLT T] in
theorem isAccepted_setStage (hn : s.notifications[n]? = some ⟨c, st⟩) (new : Stage ρ) :
    (s.setStage n new).isAccepted n = match new with | .accepted => true | _ => false := by
  unfold isAccepted
  rw [setStage_self s new hn]
  cases new <;> rfl

theorem isAccepted_accept (hn : s.notifications[n]? = some ⟨c, st⟩)
    (hx : s.schedulers[c.scheduler]? = some x) (now : T) :
    (s.accept n now).2.isAccepted n = isDue (s.times.get? c.file) now x.debounce := by
  cases hd : isDue (s.times.get? c.file) now x.debounce with
  | true =>
    rw [accept_of_due hn hx hd]
    exact isAccepted_setStage hn .accepted
  | false =>
    rw [accept_of_not_due hn hx hd]
    exact isAccepted_setStage hn (.finished none)

theorem accept_of_dropped (hn : s.notifications[n]? = some ⟨c, st⟩)
    (hx : s.schedulers[c.scheduler]? = some x) {now : T}
    (hd : (s.accept n now).2.isAccepted n = false) :
    (s.accept n now).2 = s.setStage n (.finished none) := by
  rw [isAccepted_accept hn hx] at hd
  exact accept_of_not_due hn hx hd

omit [Sub T] [LT T] [DecidableLT T] in
theorem times_proceed (s : State T ρ) (n : NotificationId) :
    (s.proceed n).2.2.times = s.times := by
  unfold proceed
  repeat' split
  all_goals rfl

omit [Sub T] [LT T] [DecidableLT T] in
theorem times_endPass (s : State T ρ) (p : PassId) (result : Option ρ) :
    (s.endPass p result).times = s.times := by
  unfold endPass
  split <;> rfl

omit [Sub T] [LT T] [DecidableLT T] in
theorem times_watch {k : SchedulerId} (hx : s.schedulers[k]? = some x) (now : T)
    (relative : String) :
    s.times.contains (s.fileOf x.inputDir relative) = false ∧
        (s.watch k now relative).1 = true ∧
        (s.watch k now relative).2.2.times = s.times.set (s.fileOf x.inputDir relative) now ∨
      (s.watch k now relative).1 = false ∧ (s.watch k now relative).2.2.times = s.times := by
  unfold fileOf State.watch
  rw [hx]
  dsimp only
  generalize Path.absolute s.cwd (Path.under x.inputDir relative) = file
  by_cases hknown : s.times.contains file = true
  · rw [if_pos hknown]
    exact .inr ⟨rfl, rfl⟩
  · rw [if_neg hknown]
    split
    · exact .inl ⟨Bool.eq_false_iff.mpr hknown, rfl, rfl⟩
    · exact .inr ⟨rfl, rfl⟩

/-- What an act leaves of the time of a file, if its readings are these. -/
def Reads (s t : State T ρ) (f : String) (readings : List (Reading T)) : Prop :=
  t.times.get? f = Reading.latest (s.times.get? f) readings ∧
    Reading.AllFair (s.times.get? f) readings

theorem reads_nothing {s t : State T ρ} (h : t.times = s.times) (f : String) :
    Reads s t f [] := ⟨by rw [h]; rfl, trivial⟩

theorem reads_watch (s : State T ρ) (k : SchedulerId) (now : T) (relative f : String) :
    Reads s (s.watch k now relative).2.2 f (s.registration f k now relative) := by
  unfold registration
  cases hx : s.schedulers[k]? with
  | none =>
    refine reads_nothing ?_ f
    unfold State.watch
    rw [hx]
  | some x =>
    dsimp only
    rcases times_watch hx now relative with ⟨hnew, hok, htimes⟩ | ⟨hno, htimes⟩
    · by_cases hf : s.fileOf x.inputDir relative = f
      · rw [if_pos ⟨hf, hok⟩]
        have hnone : s.times.get? f = none := by
          rw [hf] at hnew
          exact Option.not_isSome_iff_eq_none.mp (Bool.eq_false_iff.mp hnew)
        refine ⟨?_, hnone, trivial⟩
        rw [htimes, hf, Table.get?_set_self]
        rfl
      · rw [if_neg fun h => hf h.1]
        refine ⟨?_, trivial⟩
        rw [htimes, Table.get?_set_ne _ (Ne.symm hf)]
        rfl
    · rw [if_neg fun h => Bool.false_ne_true (hno.symm.trans h.2)]
      exact reads_nothing htimes f

theorem reads_hear (s : State T ρ) (n : NotificationId) (now : T) (f : String) :
    Reads s (s.hear n now) f (s.hearing f n now) := by
  unfold hear hearing
  cases hn : s.notifications[n]? with
  | none => exact reads_nothing rfl f
  | some y =>
    obtain ⟨c, st⟩ := y
    cases st with
    | arrived =>
      dsimp only
      cases hx : s.schedulers[c.scheduler]? with
      | none =>
        refine reads_nothing ?_ f
        unfold accept
        rw [hn]
        dsimp only
        rw [hx]
      | some x =>
        dsimp only
        rw [isAccepted_accept hn hx]
        cases hd : isDue (s.times.get? c.file) now x.debounce with
        | true =>
          rw [accept_of_due hn hx hd]
          by_cases hf : c.file = f
          · rw [if_pos hf]
            refine ⟨?_, ?_, trivial⟩
            · exact hf ▸ Table.get?_set_self s.times c.file now
            · exact hf ▸ hd.symm
          · rw [if_neg hf]
            exact ⟨Table.get?_set_ne s.times (Ne.symm hf) now, trivial⟩
        | false =>
          rw [accept_of_not_due hn hx hd]
          by_cases hf : c.file = f
          · rw [if_pos hf]
            exact ⟨rfl, hf ▸ hd.symm, trivial⟩
          · rw [if_neg hf]
            exact reads_nothing rfl f
    | accepted | waiting | owning p | finished r => exact reads_nothing rfl f

theorem reads_perform (s : State T ρ) (a : Act T ρ) (f : String) :
    Reads s (s.perform a) f (s.readings f a) := by
  cases a with
  | enlist inputDir debounce => exact reads_nothing rfl f
  | refuse paths => exact reads_nothing rfl f
  | register k now relative => exact reads_watch s k now relative f
  | report c => exact reads_nothing rfl f
  | hear n now => exact reads_hear s n now f
  | resume n =>
    refine reads_nothing ?_ f
    change (s.resume n).times = s.times
    unfold resume
    split
    · exact times_proceed s n
    · exact times_proceed s n
    · rfl
  | finish p result => exact reads_nothing (times_endPass s p result) f
  | close => exact ⟨rfl, trivial, trivial⟩

theorem reads_after (s : State T ρ) (acts : List (Act T ρ)) (f : String) :
    Reads s (s.after acts) f (s.trace f acts) := by
  induction acts generalizing s with
  | nil => exact reads_nothing rfl f
  | cons a acts ih =>
    obtain ⟨htime, hfair⟩ := reads_perform s a f
    obtain ⟨htimes, hrest⟩ := ih (s.perform a)
    rw [htime] at htimes hrest
    exact ⟨htimes.trans List.foldl_append.symm, Reading.allFair_append.mpr ⟨hfair, hrest⟩⟩

/-! ### Intervals -/

def intervals (s : State T ρ) : List T := s.schedulers.map (·.debounce)

section Intervals
omit [Sub T] [LT T] [DecidableLT T]

theorem intervals_modifyScheduler (s : State T ρ) (k : SchedulerId)
    {g : Scheduler T → Scheduler T} (hg : ∀ x, (g x).debounce = x.debounce) :
    (s.modifyScheduler k g).intervals = s.intervals := by
  refine List.ext_getElem? fun i => ?_
  unfold intervals modifyScheduler
  simp only [List.getElem?_map, List.getElem?_modify]
  cases s.schedulers[i]? with
  | none => rfl
  | some x => by_cases hi : k = i <;> simp [hi, hg]

theorem debounce_markDirty (x : Scheduler T) (file : String) :
    (x.markDirty file).debounce = x.debounce := by
  unfold Scheduler.markDirty
  split <;> rfl

theorem intervals_proceed (s : State T ρ) (n : NotificationId) :
    (s.proceed n).2.2.intervals = s.intervals := by
  unfold proceed
  split
  · rfl
  · split
    · rfl
    · split
      · rfl
      · split
        · rfl
        · exact s.intervals_modifyScheduler _ fun _ => rfl

theorem intervals_endPass (s : State T ρ) (p : PassId) (result : Option ρ) :
    (s.endPass p result).intervals = s.intervals := by
  unfold endPass
  split
  · rfl
  · exact s.intervals_modifyScheduler _ fun _ => rfl

end Intervals

theorem intervals_hear (s : State T ρ) (n : NotificationId) (now : T) :
    (s.hear n now).intervals = s.intervals := by
  unfold hear accept
  split
  · split
    · rfl
    · split
      · rfl
      · dsimp only
        split
        · exact s.intervals_modifyScheduler _ fun x => debounce_markDirty x _
        · rfl
  · rfl

theorem mem_intervals_perform {a : Act T ρ} {d : T} (hd : d ∈ (s.perform a).intervals) :
    d ∈ s.intervals ∨ ∃ inputDir, a = .enlist inputDir d := by
  cases a with
  | enlist inputDir debounce =>
    rw [show (s.perform (.enlist inputDir debounce)).intervals = s.intervals ++ [debounce] from
      List.map_append] at hd
    rcases List.mem_append.mp hd with hold | hnew
    · exact .inl hold
    · exact .inr ⟨inputDir, by rw [List.mem_singleton.mp hnew]⟩
  | refuse paths => exact .inl hd
  | register k now relative =>
    refine .inl ?_
    unfold intervals at hd ⊢
    rwa [show (s.perform (.register k now relative)).schedulers = s.schedulers from
      (s.watch_frame k now relative).1] at hd
  | report c => exact .inl hd
  | hear n now => exact .inl (s.intervals_hear n now ▸ hd)
  | resume n =>
    refine .inl ?_
    change d ∈ (s.resume n).intervals at hd
    unfold resume at hd
    split at hd
    · exact s.intervals_proceed n ▸ hd
    · exact s.intervals_proceed n ▸ hd
    · exact hd
  | finish p result => exact .inl (s.intervals_endPass p result ▸ hd)
  | close => exact .inl hd

theorem interval_of_mem_readings {a : Act T ρ} {f : String} {now interval : T}
    {accepted : Bool} (h : .heard now interval accepted ∈ s.readings f a) :
    interval ∈ s.intervals := by
  cases a with
  | hear n later =>
    change _ ∈ s.hearing f n later at h
    unfold hearing at h
    split at h
    · split at h
      · rename_i x hx
        split at h
        · obtain ⟨-, rfl, -⟩ := Reading.heard.inj (List.mem_singleton.mp h)
          exact List.mem_map_of_mem (List.mem_of_getElem? hx)
        · cases h
      · cases h
    · cases h
  | register k later relative =>
    change _ ∈ s.registration f k later relative at h
    unfold registration at h
    split at h
    · split at h
      · cases List.mem_singleton.mp h
      · cases h
    · cases h
  | close => cases List.mem_singleton.mp h
  | enlist | refuse | report | resume | finish => cases h

theorem interval_of_mem_trace {acts : List (Act T ρ)} {f : String} {now interval : T}
    {accepted : Bool} (h : .heard now interval accepted ∈ s.trace f acts) :
    interval ∈ s.intervals ∨ ∃ inputDir, .enlist inputDir interval ∈ acts := by
  induction acts generalizing s with
  | nil => cases h
  | cons a acts ih =>
    rcases List.mem_append.mp h with hnow | hlater
    · exact .inl (interval_of_mem_readings hnow)
    · rcases ih hlater with hold | ⟨inputDir, hmem⟩
      · refine (mem_intervals_perform hold).imp_right ?_
        rintro ⟨inputDir, rfl⟩
        exact ⟨inputDir, List.mem_cons_self⟩
      · exact .inr ⟨inputDir, List.mem_cons_of_mem a hmem⟩

theorem after_concat (s : State T ρ) (acts : List (Act T ρ)) (a : Act T ρ) :
    s.after (acts ++ [a]) = (s.after acts).perform a := List.foldl_concat ..

theorem hear_of_dropped {now : T} (hd : (s.hear n now).isAccepted n = false) :
    s.hear n now = s ∨ s.hear n now = s.setStage n (.finished none) := by
  unfold hear at hd ⊢
  split at hd
  · rename_i c hn
    cases hx : s.schedulers[c.scheduler]? with
    | none =>
      left
      unfold accept
      rw [hn]
      dsimp only
      rw [hx]
    | some x => exact .inr (accept_of_dropped hn hx hd)
  · exact .inl rfl

end Run

end State

section Run
variable [Sub T] [LT T] [DecidableLT T]

theorem Step.exists_act {h es : History ρ} {s t : State T ρ} (step : Step h s es t) :
    ∃ a, t = s.perform a := by
  cases step with
  | enlist inputDir debounce => exact ⟨.enlist inputDir debounce, rfl⟩
  | register k now relative => exact ⟨.register k now relative, rfl⟩
  | close => exact ⟨.close, rfl⟩
  | report c hc => exact ⟨.report c, rfl⟩
  | accept n now hn hx hd | drop n now hn hx hd =>
    refine ⟨.hear n now, ?_⟩
    change _ = s.hear n now
    unfold State.hear
    rw [hn]
  | @wait c st n hn hst hp | @launch c st p x n hn hst hp hx =>
    refine ⟨.resume n, ?_⟩
    change _ = s.resume n
    unfold State.resume
    rw [hn]
    cases st with
    | accepted | waiting => rfl
    | arrived | owning p | finished r => cases hst
  | @finish p hp result => exact ⟨.finish p result, rfl⟩

/-- Every run is a sequence of such acts. -/
theorem Run.exists_acts {cwd : String} {watcher : Watcher} {h : History ρ} {s : State T ρ}
    (run : Run cwd watcher h s) : ∃ acts, s = (State.new cwd watcher).after acts := by
  induction run with
  | start => exact ⟨[], rfl⟩
  | next _ step ih =>
    obtain ⟨acts, rfl⟩ := ih
    obtain ⟨a, rfl⟩ := step.exists_act
    exact ⟨acts ++ [a], (State.after_concat _ acts a).symm⟩

end Run

/-! ### The law -/

section Law
variable [AddCommGroup T] [LinearOrder T] [IsOrderedAddMonoid T]

/-- The law of debouncing for the readings of a file. -/
structure Debounced (readings : List (Reading T)) : Prop where
  /-- A change is accepted exactly if the interval has passed since the last reading taken. -/
  accepted_iff (before later : List (Reading T)) (now interval : T) (accepted : Bool) :
    readings = before ++ .heard now interval accepted :: later →
      (accepted = true ↔ ∀ t, Reading.latest none before = some t → t + interval ≤ now)
  /-- Readings that are taken follow each other at the interval, as long as nothing is forgotten. -/
  spaced (before between later : List (Reading T)) (r : Reading T) (t now interval : T) :
    readings = before ++ r :: (between ++ .heard now interval true :: later) →
      r.taken? = some t → .forgotten ∉ between → t < now ∧ t + interval ≤ now

theorem Reading.AllFair.debounced {readings : List (Reading T)} (h : AllFair none readings)
    (hpositive : ∀ now interval accepted, .heard now interval accepted ∈ readings →
      0 < interval) : Debounced readings where
  accepted_iff before later now interval accepted heq := by
    rw [heq, allFair_append] at h
    rw [show accepted = _ from h.2.1]
    exact isDue_iff _ now interval
  spaced before between later r t now interval heq hr hkept := by
    have hmem (x : Reading T) (hx : x ∈ between ++ Reading.heard now interval true :: later) :
        x ∈ readings := by
      rw [heq]
      exact List.mem_append_right before (List.mem_cons_of_mem r hx)
    rw [heq, allFair_append] at h
    obtain ⟨hbetween, hnow, -⟩ := allFair_append.mp h.2.2
    obtain ⟨t', ht', hle⟩ := hbetween.latest_ge
      (fun u i b hb => hpositive u i b (hmem _ (List.mem_append_left _ hb))) hkept
      (next_of_taken hr _)
    have hpos : 0 < interval :=
      hpositive now interval true (hmem _ (List.mem_append_right between List.mem_cons_self))
    have hdue := (isDue_iff _ now interval).mp (Eq.symm hnow) t' ht'
    have hspace : t + interval ≤ now := (add_le_add_left hle interval).trans hdue
    exact ⟨(lt_add_of_pos_right t hpos).trans_le hspace, hspace⟩

/-- In every order of steps the law of debouncing holds for every file; what is accepted depends on
the file's own readings alone; and a change that is dropped leaves the times, the registrations, the
dirty files and the passes as they are. -/
theorem changes_debounced (cwd : String) (watcher : Watcher) (acts : List (Act T ρ))
    (f : String) (hpositive : ∀ inputDir d, .enlist inputDir d ∈ acts → 0 < d) :
    Debounced ((State.new cwd watcher).trace f acts) ∧
    (∀ (cwd' : String) (watcher' : Watcher) (acts' : List (Act T ρ)) (f' : String),
      ((State.new cwd watcher).trace f acts).map Reading.unanswered =
        ((State.new cwd' watcher').trace f' acts').map Reading.unanswered →
      (State.new cwd watcher).trace f acts = (State.new cwd' watcher').trace f' acts') ∧
    ∀ (n : NotificationId) (now : T),
      let s := (State.new cwd watcher).after acts
      let t := s.hear n now
      t.isAccepted n = false → t.times = s.times ∧ t.watcher = s.watcher ∧
        t.schedulers = s.schedulers ∧ t.passes = s.passes := by
  have hfair := ((State.new cwd watcher).reads_after acts f).2
  refine ⟨hfair.debounced fun now interval accepted hm => ?_,
    fun cwd' watcher' acts' f' heard => ?_, fun n now hd => ?_⟩
  · rcases State.interval_of_mem_trace hm with hold | ⟨inputDir, hmem⟩
    · cases hold
    · exact hpositive inputDir interval hmem
  · exact hfair.determined ((State.new cwd' watcher').reads_after acts' f').2 heard
  · rcases State.hear_of_dropped hd with hsame | hstage
    · rw [hsame]
      exact ⟨rfl, rfl, rfl, rfl⟩
    · rw [hstage]
      exact ⟨rfl, rfl, rfl, rfl⟩

end Law

/-- A file is heard of too early, at a time before its registration, in time, and too early
again while a pass runs. -/
def restlessFile : List (Act Int String) :=
  [.enlist "/" 5, .register 0 10 "a", .report ⟨0, "/a", "a"⟩, .report ⟨0, "/a", "a"⟩,
    .report ⟨0, "/a", "a"⟩, .report ⟨0, "/a", "a"⟩, .hear 0 12, .hear 1 8, .hear 2 15, .resume 2,
    .hear 3 16, .finish 0 none]

theorem changes_debounced_restlessFile :
    (State.new "/" (.table [] .empty)).trace "/a" restlessFile =
      [.registered 10, .heard 12 5 false, .heard 8 5 false, .heard 15 5 true, .heard 16 5 false] ∧
    Debounced ((State.new "/" (.table [] .empty)).trace "/a" restlessFile) := by
  have hpositive : ∀ inputDir d, Act.enlist inputDir d ∈ restlessFile → 0 < d := by
    simp [restlessFile]
  exact ⟨by decide +kernel,
    (changes_debounced "/" (.table [] .empty) restlessFile "/a" hpositive).1⟩

end TemplateHost.Watch
