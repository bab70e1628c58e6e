import TemplateHost.Proofs.Host.Overlap
import TemplateHost.Proofs.Sequence
import TemplateHost.Proofs.Watch.Keys

/-!
# Known files of a session

Compile calls, other schedulers, changes, turns of the loop and stops come in any order. A file is
known as long as it is watched, and for longer only if a change of it was reported before the
watcher stopped and its handling started afterwards. While such a change keeps a file known, no
compile call registers the file.
-/
namespace TemplateHost.Session

/-- Something that happens between two turns of the loop, or a turn. -/
inductive Deed where
  /-- A compile call sees to the watching of its sources. -/
  | compile (plan : Plan)
  | enlist (inputDir : String) (debounce : Time)
  | watchAll (k : Watch.SchedulerId) (files : List String)
  /-- Other paths than before cannot be watched. -/
  | refuse (paths : List String)
  | change (file : String)
  | turn (i : Nat)
  /-- Whatever else happens to the host. -/
  | elapse (h : Host)
  | close

namespace Deed

/-- Neither does the loop turn nor does the watcher stop. -/
def isQuiet : Deed → Bool
  | .turn _ | .close => false
  | _ => true

theorem close_ne_turn (i : Nat) : close ≠ turn i := nofun

theorem close_ne_of_isQuiet {d : Deed} (hd : d.isQuiet = true) : close ≠ d := by
  rintro rfl
  cases hd

end Deed

def perform (s : Session) : Deed → Session
  | .compile plan => s.watchSources plan
  | .enlist inputDir debounce => { s with watch := (s.watch.addScheduler inputDir debounce).2 }
  | .watchAll k files => { s with watch := (s.watch.watchAll k s.env.clock files).2 }
  | .refuse paths =>
    { s with watch := { s.watch with watcher := s.watch.watcher.refuse paths } }
  | .change file =>
    match s.watch.watcher.callback? file with
    | some c => (s.notify c).2
    | none => s
  | .turn i => s.turn environment i
  | .elapse h => { s with env := h }
  | .close => s.close

def performAll (s : Session) (ds : List Deed) : Session := ds.foldl perform s

variable {start : Session} {ds : List Deed}

theorem performAll_concat (start : Session) (ds : List Deed) (d : Deed) :
    start.performAll (ds ++ [d]) = (start.performAll ds).perform d := by
  simp [performAll]

/-- A notification was there when the watcher last stopped. -/
def Late (start : Session) (ds : List Deed) (n : Watch.NotificationId) : Prop :=
  ∃ earlier later, ds = earlier ++ .close :: later ∧ .close ∉ later ∧
    n < (start.performAll earlier).watch.notifications.length

/-- Since the watcher last stopped, the handling of a late change of a file has started, while the
file was not watched. -/
def Stray (start : Session) (ds : List Deed) (f : String) : Prop :=
  ∃ before i after n c, ds = before ++ .turn i :: after ∧ .close ∉ after ∧
    (start.performAll before).starting? i = some (n, c) ∧ c.file = f ∧
    (start.performAll before).watch.watcher.callback? f = none ∧ Late start before n

theorem late_close {n : Watch.NotificationId}
    (hn : n < (start.performAll ds).watch.notifications.length) :
    Late start (ds ++ [.close]) n :=
  ⟨ds, [], rfl, List.not_mem_nil, hn⟩

theorem Late.concat {n : Watch.NotificationId} (hn : Late start ds n) {d : Deed} (hd : .close ≠ d) :
    Late start (ds ++ [d]) n := by
  obtain ⟨earlier, later, rfl, hno, hlt⟩ := hn
  refine ⟨earlier, later ++ [d], by simp, fun hm => ?_, hlt⟩
  rcases List.mem_append.mp hm with hm | hm
  · exact hno hm
  · exact hd (List.mem_singleton.mp hm)

theorem stray_concat_iff {d : Deed} {f : String} :
    Stray start (ds ++ [d]) f ↔ .close ≠ d ∧ (Stray start ds f ∨ ∃ i n c, d = .turn i ∧
      (start.performAll ds).starting? i = some (n, c) ∧ c.file = f ∧
      (start.performAll ds).watch.watcher.callback? f = none ∧ Late start ds n) := by
  constructor
  · rintro ⟨before, i, after, n, c, heq, hno, hrest⟩
    rcases Sequence.split_concat heq with ⟨rest, hds, rfl⟩ | ⟨rfl, rfl, -⟩
    · rw [List.mem_append, not_or, List.mem_singleton] at hno
      exact ⟨hno.2, Or.inl ⟨before, i, rest, n, c, hds, hno.1, hrest⟩⟩
    · exact ⟨nofun, Or.inr ⟨i, n, c, rfl, hrest⟩⟩
  · rintro ⟨hd, ⟨before, i, after, n, c, rfl, hno, hrest⟩ | ⟨i, n, c, rfl, hrest⟩⟩
    · refine ⟨before, i, after ++ [d], n, c, by simp, fun hm => ?_, hrest⟩
      rcases List.mem_append.mp hm with hm | hm
      · exact hno hm
      · exact hd (List.mem_singleton.mp hm)
    · exact ⟨ds, i, [], n, c, rfl, List.not_mem_nil, hrest⟩

theorem stray_concat_of_isQuiet {d : Deed} (hd : d.isQuiet = true) (f : String) :
    Stray start ds f ↔ Stray start (ds ++ [d]) f := by
  rw [stray_concat_iff]
  constructor
  · exact fun h => ⟨Deed.close_ne_of_isQuiet hd, Or.inl h⟩
  · rintro ⟨-, h | ⟨i, n, c, rfl, -⟩⟩
    · exact h
    · cases hd

section Keyed
variable {cwd : String}

/-- The turn of a notification makes its file stray if the change is late and nobody watches. -/
theorem keyed_turn_concat {s : Session} (hs : start.performAll ds = s)
    (h : s.watch.Keyed cwd (Stray start ds) (Late start ds)) (i : Nat) :
    (s.turn environment i).watch.Keyed cwd (Stray start (ds ++ [.turn i]))
      (Late start (ds ++ [.turn i])) := by
  refine (Watch.Loop.keyed_turn environment h i).of_iff (fun f => ?_) fun n hn =>
    hn.concat (Deed.close_ne_turn i)
  rw [stray_concat_iff, hs]
  constructor
  · rintro (hstray | ⟨n, c, hstart, rfl, hnone⟩)
    · exact ⟨Deed.close_ne_turn i, Or.inl hstray⟩
    · refine ⟨Deed.close_ne_turn i, Or.inr ⟨i, n, c, rfl, hstart, rfl, hnone, ?_⟩⟩
      -- Reported for a watched file, the change outlasted its callback.
      rcases (h.reported n c (Watch.Loop.reports_of_starting? hstart)).2 with hsome | hlate
      · rw [hnone] at hsome
        cases hsome
      · exact hlate
  · rintro ⟨-, hstray | ⟨j, n, c, hj, hstart, hfile, hnone, -⟩⟩
    · exact Or.inl hstray
    · cases hj
      exact Or.inr ⟨n, c, hstart, hfile, hnone⟩

theorem keyed_perform (hcwd : Path.isAbsolute cwd = true) {s : Session}
    (hs : start.performAll ds = s) (h : s.watch.Keyed cwd (Stray start ds) (Late start ds))
    (d : Deed) :
    (s.perform d).watch.Keyed cwd (Stray start (ds ++ [d])) (Late start (ds ++ [d])) := by
  have hquiet {t : Session} (hd : d.isQuiet = true)
      (ht : t.watch.Keyed cwd (Stray start ds) (Late start ds)) :
      t.watch.Keyed cwd (Stray start (ds ++ [d])) (Late start (ds ++ [d])) :=
    ht.of_iff (stray_concat_of_isQuiet hd) fun n hn => hn.concat (Deed.close_ne_of_isQuiet hd)
  have henlist (inputDir : String) (debounce : Time) :
      (s.watch.addScheduler inputDir debounce).2.Keyed cwd (Stray start ds) (Late start ds) :=
    h.of_frame rfl rfl rfl (by simp [Watch.State.addScheduler]) rfl
  cases d with
  | compile plan =>
    refine hquiet rfl ?_
    unfold perform watchSources
    dsimp only
    split
    · exact h
    · exact (henlist plan.inputDir Session.debounce).watchAll hcwd _ _ _
  | enlist inputDir debounce => exact hquiet rfl (henlist inputDir debounce)
  | watchAll k files => exact hquiet rfl (h.watchAll hcwd k _ files)
  | refuse paths => exact hquiet rfl (h.refuse paths)
  | change file =>
    refine hquiet rfl ?_
    unfold perform
    dsimp only
    split
    · rename_i c hc
      exact h.notify hc
    · exact h
  | turn i => exact keyed_turn_concat hs h i
  | elapse => exact hquiet rfl h
  | close =>
    refine h.close.of_iff (fun f => iff_of_false id ?_) fun n hn => late_close (hs ▸ hn)
    rw [stray_concat_iff]
    exact fun hclose => hclose.1 rfl

/-- Known files and watched files have the same in common after every deed. -/
theorem keyed_performAll (hcwd : Path.isAbsolute cwd = true)
    (hs : start.watch.Keyed cwd (fun _ => False) fun _ => False) (ds : List Deed) :
    (start.performAll ds).watch.Keyed cwd (Stray start ds) (Late start ds) := by
  induction ds using List.reverseRecOn with
  | nil =>
    refine hs.of_iff (fun f => iff_of_false id ?_) fun n => False.elim
    rintro ⟨before, i, after, n, c, heq, -⟩
    simp at heq
  | append_singleton ds d ih =>
    rw [performAll_concat]
    exact keyed_perform hcwd rfl ih d

end Keyed

/-- A compile call makes each of its sources known, unless the watcher refuses it. -/
theorem known_watchSources (s : Session) (plan : Plan)
    (hon : s.env.options.flag .allowDynamicRecompile = true) {relative : String}
    (hm : relative ∈ plan.files) :
    (s.watchSources plan).watch.times.contains (s.watch.fileOf plan.inputDir relative) = true ∨
      (s.watchSources plan).watch.watcher.Refuses (s.watch.fileOf plan.inputDir relative) := by
  have hwatch : (s.watchSources plan).watch =
      ((s.watch.addScheduler plan.inputDir debounce).2.watchAll s.watch.schedulers.length
        s.env.clock plan.files).2 := by
    unfold watchSources
    rw [hon]
    rfl
  have hx : (s.watch.addScheduler plan.inputDir debounce).2.schedulers[
      s.watch.schedulers.length]? = some (.new plan.inputDir debounce) := by
    simp [Watch.State.addScheduler]
  rw [hwatch]
  exact (Watch.State.registers_watchAll hx s.env.clock plan.files).known _
    (List.mem_map_of_mem hm)

/-- What is known and watched after some deeds, and what registering more comes to. -/
structure Accounted (start : Session) (ds : List Deed) : Prop where
  known (f : String) : (start.performAll ds).watch.times.contains f = true ↔
    ((start.performAll ds).watch.watcher.callback? f).isSome ∨ Stray start ds f
  unwatched (f : String) :
    Stray start ds f → (start.performAll ds).watch.watcher.callback? f = none
  /-- Only a file that is not watched is registered, however its path is written. -/
  once (k : Watch.SchedulerId) (now : Time) (relative : String) :
    ((start.performAll ds).watch.watch k now relative).1 = true →
    ∃ x, (start.performAll ds).watch.schedulers[k]? = some x ∧
      (start.performAll ds).watch.watcher.callback?
        ((start.performAll ds).watch.fileOf x.inputDir relative) = none ∧
      ((start.performAll ds).watch.watch k now relative).2.2.watcher.callback?
        ((start.performAll ds).watch.fileOf x.inputDir relative) =
          some ⟨k, (start.performAll ds).watch.fileOf x.inputDir relative, relative⟩
  /-- A registration that fails, or that is not needed, leaves no trace. -/
  traceless (k : Watch.SchedulerId) (now : Time) (relative : String) :
    ((start.performAll ds).watch.watch k now relative).1 = false →
    ((start.performAll ds).watch.watch k now relative).2.2.times =
        (start.performAll ds).watch.times ∧
      ∀ f, ((start.performAll ds).watch.watch k now relative).2.2.watcher.callback? f =
        (start.performAll ds).watch.watcher.callback? f
  /-- After a compile call all of its sources are watched that can be and are not stray. -/
  again (plan : Plan) (relative : String) :
    (start.performAll ds).env.options.flag .allowDynamicRecompile = true →
    relative ∈ plan.files →
    let file := (start.performAll ds).watch.fileOf plan.inputDir relative
    (((start.performAll ds).watchSources plan).watch.watcher.callback? file).isSome ∨
      ((start.performAll ds).watchSources plan).watch.watcher.Refuses file ∨ Stray start ds file

/-- In every state of a session the known files are the watched ones, but for those that are
stray. -/
theorem known_iff_watched (h : Host) (watcher : Watch.Watcher)
    (hcwd : Path.isAbsolute h.surroundings.cwd = true) (hw : watcher.IsNew h.surroundings.cwd)
    (ds : List Deed) : Accounted (.start h watcher) ds := by
  have hnew : (Session.start h watcher).watch.Keyed h.surroundings.cwd (fun _ => False)
      fun _ => False := Watch.State.keyed_new hw
  have hkeyed := keyed_performAll hcwd hnew
  refine ⟨(hkeyed ds).known, (hkeyed ds).unwatched, fun k now relative hok => ?_,
    fun k now relative hno => ?_, fun plan relative hon hm => ?_⟩
  · cases hx : ((Session.start h watcher).performAll ds).watch.schedulers[k]? with
    | none =>
      unfold Watch.State.watch at hok
      rw [hx] at hok
      cases hok
    | some x =>
      refine ⟨x, rfl, ?_⟩
      obtain ⟨-, ⟨-, heq⟩ | ⟨hunknown, -, -, hself, -⟩ | ⟨-, hno, -⟩⟩ :=
        (hkeyed ds).watch_cases hcwd hx now relative
      · rw [heq] at hok
        cases hok
      · refine ⟨Option.not_isSome_iff_eq_none.mp fun hsome => ?_, hself⟩
        rw [((hkeyed ds).known _).mpr (Or.inl hsome)] at hunknown
        cases hunknown
      · rw [hno] at hok
        cases hok
  · cases hx : ((Session.start h watcher).performAll ds).watch.schedulers[k]? with
    | none =>
      unfold Watch.State.watch
      rw [hx]
      exact ⟨rfl, fun f => rfl⟩
    | some x =>
      obtain ⟨-, ⟨-, heq⟩ | ⟨-, hok, -⟩ | ⟨-, -, htimes, hsame⟩⟩ :=
        (hkeyed ds).watch_cases hcwd hx now relative
      · rw [heq]
        exact ⟨rfl, fun f => rfl⟩
      · rw [hok] at hno
        cases hno
      · exact ⟨htimes, hsame⟩
  · have hnext := (hkeyed (ds ++ [.compile plan])).known
      (((Session.start h watcher).performAll ds).watch.fileOf plan.inputDir relative)
    have hquiet := @stray_concat_of_isQuiet (.start h watcher) ds (.compile plan) rfl
    rw [performAll_concat, ← hquiet] at hnext
    rcases known_watchSources _ plan hon hm with hknown | hrefused
    · exact (hnext.mp hknown).imp id Or.inr
    · exact Or.inr (Or.inl hrefused)

/-- A change that is reported before the watcher stops, and handled afterwards. -/
def changeAtClose : List Deed :=
  [.compile ⟨"/w", "/tmp", ["a.soy"], 0⟩, .change "/w/a.soy", .close, .turn 0]

/-- The file is known and nobody watches it. -/
theorem known_iff_watched_changeAtClose :
    Stray (.start watchful (.table [] .empty)) changeAtClose "/w/a.soy" ∧
    ((Session.start watchful (.table [] .empty)).performAll changeAtClose).watch.times.contains
      "/w/a.soy" = true ∧
    ((Session.start watchful (.table [] .empty)).performAll
      changeAtClose).watch.watcher.callback? "/w/a.soy" = none := by
  have haccounted := known_iff_watched watchful (.table [] .empty) rfl (.table []) changeAtClose
  have hstray : Stray (.start watchful (.table [] .empty)) changeAtClose "/w/a.soy" :=
    ⟨changeAtClose.take 3, 0, [], 0, ⟨0, "/w/a.soy", "a.soy"⟩, rfl, List.not_mem_nil, rfl, rfl, rfl,
      changeAtClose.take 2, [], rfl, List.not_mem_nil, by decide +kernel⟩
  exact ⟨hstray, (haccounted.known _).mpr (Or.inr hstray), haccounted.unwatched _ hstray⟩

end TemplateHost.Session
