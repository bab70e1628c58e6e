import TemplateHost.Host.Session
import TemplateHost.Proofs.Watch.Loop
import TemplateHost.Proofs.Watch.Registration

/-!
# Overlapping passes

Passes are started from two places: a compile call runs a first pass itself, and has a scheduler of
its own launch the later ones. Here the call's first pass is one more task, and all tasks take turns
in any order. Whoever starts a pass waits for the passes it has started before, and for no others.
-/
namespace TemplateHost.Session

inductive Starter where
  | call
  | scheduler (k : Watch.SchedulerId)
deriving DecidableEq

/-- A session with the first pass of the compile call that is awaited, if any. -/
structure Activity where
  session : Session
  first : Option (Flow Host (Except Problem (Option Problem)))

inductive Action where
  /-- A compile call prepares its first pass. -/
  | call (inputDir : String) (files : List String) (channel : ChannelId)
  /-- The first pass goes on to its next pause or its end. -/
  | resume
  /-- The job at a position in the queue has its turn. -/
  | turn (i : Nat)
  | change (c : Watch.Callback)
  /-- Time passes, and files change. -/
  | elapse (clock : Time) (now : Instant) (tree : FileTree)

namespace Activity

def absorb (a : Activity) : Outcome Host (Except Problem (Option Problem)) → Activity
  | .done _ h => ⟨{ a.session with env := h }, none⟩
  | .paused h rest => ⟨{ a.session with env := h }, some rest⟩

def resume (a : Activity) : Activity :=
  match a.first with
  | some rest => a.absorb (rest a.session.env)
  | none => a

def act (a : Activity) : Action → Activity
  | .call inputDir files channel =>
    let (first, s) := a.session.prepareCall inputDir files channel
    ⟨s, some first.run⟩
  | .resume => a.resume
  | .turn i => { a with session := a.session.turn environment i }
  | .change c => { a with session := (a.session.notify c).2 }
  | .elapse clock now tree =>
    { a with session :=
        { a.session with env := { a.session.env with clock := clock, now := now, tree := tree } } }

/-- Compile calls are awaited one after the other, and only changes of watched files are
reported. -/
def Allows (a : Activity) : Action → Prop
  | .call .. => a.first = none
  | .change c => ∃ file, a.session.watch.watcher.callback? file = some c
  | .resume | .turn _ | .elapse .. => True

def launcher? (s : Session) (p : Watch.PassId) : Option Starter :=
  s.watch.passes[p]?.map fun x => .scheduler x.scheduler

/-- Who has a pass in flight, once for each pass. -/
def inFlight (a : Activity) : List Starter :=
  (if a.first.isSome then [.call] else []) ++ a.session.flying.filterMap (launcher? a.session)

/-- Who starts a pass by an action. -/
def starter? (a : Activity) : Action → Option Starter
  | .call .. => some .call
  | .turn i => a.session.queue[i]?.bind fun j => (a.session.watch.launching j).map .scheduler
  | .resume | .change _ | .elapse .. => none

def after (a : Activity) (xs : List Action) : Activity := xs.foldl act a

/-- Actions that are allowed when their time comes. -/
inductive Run (a : Activity) : List Action → Prop where
  | start : Run a []
  | next {xs : List Action} (hr : Run a xs) (x : Action) (hx : (a.after xs).Allows x) :
      Run a (xs ++ [x])

/-- A compile call that nothing interrupts goes on from every pause at once. -/
theorem compileFrom_reached (s : Session) (inputDir : String) (files : List String)
    (channel : ChannelId) :
    ∃ n, after ⟨s, none⟩ (.call inputDir files channel :: List.replicate n .resume) =
      ⟨(s.compileFrom inputDir files channel).2, none⟩ := by
  have hrun (t : Session) (o : Outcome Host (Except Problem (Option Problem))) :
      ∃ n, after ((⟨t, none⟩ : Activity).absorb o) (List.replicate n .resume) =
        ⟨{ t with env := o.run.2 }, none⟩ := by
    induction o generalizing t with
    | done r h => exact ⟨0, rfl⟩
    | paused h rest ih =>
      obtain ⟨n, hn⟩ := ih h { t with env := h }
      exact ⟨n + 1, hn⟩
  obtain ⟨n, hn⟩ := hrun (s.prepareCall inputDir files channel).2
    ((s.prepareCall inputDir files channel).1.run (s.prepareCall inputDir files channel).2.env)
  exact ⟨n + 1, hn⟩

variable {a : Activity} {cwd : String} {watcher : Watch.Watcher}

theorem after_concat (a : Activity) (xs : List Action) (x : Action) :
    a.after (xs ++ [x]) = (a.after xs).act x := by
  simp [after]

theorem Run.of_prefix {r xs : List Action} (hr : Run a xs) (hp : r <+: xs) : Run a r := by
  induction hr with
  | start =>
    rw [List.prefix_nil.mp hp]
    exact .start
  | next hr x hx ih =>
    rcases List.prefix_concat_iff.mp hp with rfl | hp
    · exact .next hr x hx
    · exact ih hp

theorem environment_neverHolds : environment.NeverHolds := by
  intro p x h
  unfold environment recompile
  dsimp only
  split
  · exact ⟨_, rfl⟩
  · exact ⟨_, rfl⟩

theorem run_watchAll {h : Watch.History PassResult} {s : Watch.State Time PassResult}
    (run : Watch.Run cwd watcher h s) (k : Watch.SchedulerId) (now : Time) (files : List String) :
    Watch.Run cwd watcher h (s.watchAll k now files).2 := by
  induction files generalizing s with
  | nil => exact run
  | cons f r ih =>
    have hnext := run.next (.register s k now f)
    rw [List.append_nil] at hnext
    exact ih hnext

theorem watchAll_passes (s : Watch.State Time PassResult) (k : Watch.SchedulerId) (now : Time)
    (files : List String) : (s.watchAll k now files).2.passes = s.passes := by
  induction files generalizing s with
  | nil => rfl
  | cons f r ih =>
    obtain ⟨-, -, hp⟩ := s.watch_frame k now f
    exact (ih _).trans hp

theorem prepareCall_spec (s : Session) (inputDir : String) (files : List String)
    (channel : ChannelId) {h : Watch.History PassResult} (run : Watch.Run cwd watcher h s.watch) :
    Watch.Run cwd watcher h (s.prepareCall inputDir files channel).2.watch ∧
    (s.prepareCall inputDir files channel).2.watch.passes = s.watch.passes ∧
    (s.prepareCall inputDir files channel).2.queue = s.queue := by
  unfold prepareCall watchSources
  dsimp only
  split
  · exact ⟨run, rfl, rfl⟩
  · have hnext := run.next (.enlist s.watch inputDir debounce)
    rw [List.append_nil] at hnext
    exact ⟨run_watchAll hnext _ _ _, watchAll_passes _ _ _ _, rfl⟩

/-- The schedulers have made a run of their own. -/
def Sound (cwd : String) (watcher : Watch.Watcher) (a : Activity) : Prop :=
  ∃ h, Watch.Loop.Sound cwd watcher h a.session

theorem resume_watch (a : Activity) :
    a.resume.session.watch = a.session.watch ∧ a.resume.session.queue = a.session.queue := by
  unfold resume
  split
  · unfold absorb
    split <;> exact ⟨rfl, rfl⟩
  · exact ⟨rfl, rfl⟩

theorem turn_of_none {s : Session} {i : Nat} (hi : s.queue[i]? = none) :
    s.turn environment i = s := by
  unfold Watch.Loop.turn
  rw [hi]

theorem flying_of_queue {s t : Session} (hq : t.queue = s.queue) : t.flying = s.flying :=
  congrArg (List.filterMap Watch.Job.pass?) hq

theorem Sound.act (hs : a.Sound cwd watcher) (hw : ∀ f, watcher.callback? f = none) {x : Action}
    (hx : a.Allows x) : (a.act x).Sound cwd watcher := by
  obtain ⟨h, hs⟩ := hs
  cases x with
  | call inputDir files channel =>
    obtain ⟨hrun, -, hq⟩ := prepareCall_spec a.session inputDir files channel hs.run
    have hf : (a.act (.call inputDir files channel)).session.flying = a.session.flying :=
      flying_of_queue hq
    exact ⟨h, hrun, fun p => by rw [hf]; exact hs.flying_iff p, by rw [hf]; exact hs.nodup⟩
  | resume =>
    obtain ⟨hw, hq⟩ := a.resume_watch
    exact ⟨h, hs.stay hw (.of_eq (flying_of_queue hq))⟩
  | turn i =>
    cases hj : a.session.queue[i]? with
    | none =>
      refine ⟨h, ?_⟩
      change Watch.Loop.Sound cwd watcher h (a.session.turn environment i)
      rwa [turn_of_none hj]
    | some j =>
      obtain ⟨es, hes, -⟩ := hs.turn environment_neverHolds hj
      exact ⟨h ++ es, hes⟩
  | change c =>
    obtain ⟨f, hf⟩ := hx
    have hlt := hs.run.directed hw f c hf
    have hstep : Watch.Step h a.session.watch [] (a.act (.change c)).session.watch := .report c hlt
    refine ⟨h ++ [], hs.step hstep (fun p => by rw [List.append_nil]) (.of_eq ?_)⟩
    exact Watch.Loop.flying_push_notification ..
  | elapse clock now tree => exact ⟨h, hs.stay rfl (.refl _)⟩

theorem Run.sound {h : Host} (hw : ∀ f, watcher.callback? f = none) {xs : List Action}
    (hr : Run ⟨.start h watcher, none⟩ xs) :
    (after ⟨.start h watcher, none⟩ xs).Sound h.surroundings.cwd watcher := by
  induction hr with
  | start => exact ⟨[], .start, by simp [after, Session.start, Watch.Loop.flying,
      Watch.History.InFlight], List.nodup_nil⟩
  | next hr x hx ih =>
    rw [after_concat]
    exact ih.act hw hx

theorem Sound.nodup_inFlight (hs : a.Sound cwd watcher) : a.inFlight.Nodup := by
  obtain ⟨h, hs⟩ := hs
  have hschedulers : (a.session.flying.filterMap (launcher? a.session)).Nodup := by
    refine List.pairwise_filterMap.mpr (hs.nodup.imp_of_mem ?_)
    intro p q hp hq hne v hv w hw
    obtain ⟨x, hx, rfl⟩ := Option.map_eq_some_iff.mp hv
    obtain ⟨y, hy, rfl⟩ := Option.map_eq_some_iff.mp hw
    intro hk
    exact hne (hs.run.sound.exclusive hx hy (Starter.scheduler.inj hk)
      ((hs.flying_iff p).mp hp) ((hs.flying_iff q).mp hq))
  unfold inFlight
  split
  · refine List.nodup_append.mpr ⟨by simp, hschedulers, ?_⟩
    intro v hv w hw
    obtain ⟨p, -, hp⟩ := List.mem_filterMap.mp hw
    obtain ⟨x, -, rfl⟩ := Option.map_eq_some_iff.mp hp
    rw [List.mem_singleton.mp hv]
    exact Starter.noConfusion
  · exact hschedulers

theorem launcher?_congr {s t : Session} (hp : t.watch.passes = s.watch.passes) :
    launcher? t = launcher? s := by
  funext p
  unfold launcher?
  rw [hp]

theorem launchers_of_quiet {s t : Session} (hp : t.watch.passes = s.watch.passes)
    (hf : t.flying.Subperm s.flying) :
    (t.flying.filterMap (launcher? t)).Subperm (s.flying.filterMap (launcher? s)) := by
  rw [launcher?_congr hp]
  obtain ⟨l, hperm, hsub⟩ := hf
  exact ⟨_, hperm.filterMap _, hsub.filterMap _⟩

theorem launchers_of_launch {s t : Session} {x : Watch.Pass}
    (hs : ∀ p ∈ s.flying, p < s.watch.passes.length)
    (hp : t.watch.passes = s.watch.passes ++ [x])
    (hf : t.flying.Perm (s.watch.passes.length :: s.flying)) :
    (t.flying.filterMap (launcher? t)).Perm
      (.scheduler x.scheduler :: s.flying.filterMap (launcher? s)) := by
  have hnew : launcher? t s.watch.passes.length = some (.scheduler x.scheduler) := by
    unfold launcher?
    rw [hp, List.getElem?_concat_length]
    rfl
  have hold : s.flying.filterMap (launcher? t) = s.flying.filterMap (launcher? s) := by
    refine List.filterMap_congr fun p hm => ?_
    unfold launcher?
    rw [hp, List.getElem?_append_left (hs p hm)]
  have hperm := hf.filterMap (launcher? t)
  rwa [List.filterMap_cons_some hnew, hold] at hperm

theorem inFlight_resume (a : Activity) : a.resume.inFlight.Subperm a.inFlight := by
  obtain ⟨hw, hq⟩ := a.resume_watch
  have hsub : (if a.resume.first.isSome then [Starter.call] else []).Subperm
      (if a.first.isSome then [Starter.call] else []) := by
    unfold resume
    split
    · rename_i rest hfirst
      rw [hfirst]
      split
      · exact List.Subperm.refl _
      · exact List.nil_subperm
    · rename_i hfirst
      rw [hfirst]
  have hp : a.resume.session.watch.passes = a.session.watch.passes := by rw [hw]
  exact hsub.append (launchers_of_quiet hp (List.Perm.of_eq (flying_of_queue hq)).subperm)

theorem Sound.inFlight_turn (hs : a.Sound cwd watcher) (i : Nat) :
    match a.starter? (.turn i) with
    | some w => (a.act (.turn i)).inFlight.Perm (w :: a.inFlight)
    | none => (a.act (.turn i)).inFlight.Subperm a.inFlight := by
  obtain ⟨h, hs⟩ := hs
  cases hj : a.session.queue[i]? with
  | none =>
    simp only [starter?, hj, Activity.act, turn_of_none hj, Option.bind_none]
    exact List.Subperm.refl _
  | some j =>
    obtain ⟨es, -, heff⟩ := hs.turn environment_neverHolds hj
    have hlt (p : Watch.PassId) (hp : p ∈ a.session.flying) :
        p < a.session.watch.passes.length := by
      obtain ⟨⟨x, hx⟩, -⟩ := (hs.flying_iff p).mp hp
      exact (List.getElem?_eq_some_iff.mp ((hs.run.sound.ownership.launched_iff p x).mp hx)).1
    have hk : a.starter? (.turn i) = (a.session.watch.launching j).map .scheduler := by
      simp [starter?, hj]
    rw [hk]
    generalize a.session.watch.launching j = k at heff ⊢
    cases heff with
    | quiet hp hf => exact (List.Subperm.refl _).append (launchers_of_quiet hp hf)
    | launch x hp hf =>
      exact ((launchers_of_launch hlt hp hf).append_left _).trans List.perm_middle

/-- An action starts the pass of its starter, whoever else has one in flight, and no other one. -/
theorem Sound.inFlight_act (hs : a.Sound cwd watcher) {x : Action} (hx : a.Allows x) :
    match a.starter? x with
    | some w => (a.act x).inFlight.Perm (w :: a.inFlight)
    | none => (a.act x).inFlight.Subperm a.inFlight := by
  cases x with
  | call inputDir files channel =>
    obtain ⟨h, hs⟩ := hs
    obtain ⟨-, hp, hq⟩ := prepareCall_spec a.session inputDir files channel hs.run
    have hnone : a.first = none := hx
    have hin : (a.act (.call inputDir files channel)).inFlight = .call :: a.inFlight := by
      simp [inFlight, Activity.act, Watch.Loop.flying, launcher?_congr hp, hq, hnone]
    exact .of_eq hin
  | resume => exact a.inFlight_resume
  | turn i => exact hs.inFlight_turn i
  | change c =>
    have hf : (a.act (.change c)).session.flying = a.session.flying :=
      Watch.Loop.flying_push_notification ..
    exact (List.Subperm.refl _).append (launchers_of_quiet rfl (List.Perm.of_eq hf).subperm)
  | elapse clock now tree => exact List.Subperm.refl _

/-- Where two passes are in flight, the later one was started beside the earlier one. -/
theorem Run.exists_start {h : Host} (hw : ∀ f, watcher.callback? f = none) {xs : List Action}
    (run : Run ⟨.start h watcher, none⟩ xs)
    (hlen : 1 < (after ⟨.start h watcher, none⟩ xs).inFlight.length) :
    ∃ r x t, xs = r ++ x :: t ∧ ∃ v w,
      (after ⟨.start h watcher, none⟩ r).starter? x = some w ∧
      v ∈ (after ⟨.start h watcher, none⟩ r).inFlight ∧ v ≠ w := by
  induction run with
  | start => simp [after, inFlight, Session.start, Watch.Loop.flying] at hlen
  | @next xs hr x hx ih =>
    by_cases hold : 1 < (after ⟨.start h watcher, none⟩ xs).inFlight.length
    · obtain ⟨r, y, t, rfl, hrest⟩ := ih hold
      exact ⟨r, y, t ++ [x], by simp, hrest⟩
    · have hstep := (hr.sound hw).inFlight_act hx
      rw [after_concat] at hlen
      split at hstep
      · rename_i w hstart
        refine ⟨xs, x, [], rfl, ?_⟩
        have hnodup := ((hr.sound hw).act hw hx).nodup_inFlight
        rw [hstep.nodup_iff, List.nodup_cons] at hnodup
        rw [hstep.length_eq, List.length_cons] at hlen
        obtain ⟨v, hv⟩ := List.exists_mem_of_length_pos (by omega : 0 <
          (after ⟨.start h watcher, none⟩ xs).inFlight.length)
        exact ⟨v, w, hstart, hv, fun he => hnodup.1 (he ▸ hv)⟩
      · exact absurd (Nat.lt_of_lt_of_le hlen hstep.length_le) hold

theorem Run.allows {r xs : List Action} {x : Action} (run : Run a xs) (hp : r ++ [x] <+: xs) :
    (a.after r).Allows x := by
  have hr := run.of_prefix hp
  generalize hy : r ++ [x] = ys at hr
  cases hr with
  | start => simp at hy
  | next hr z hz =>
    obtain ⟨rfl, hxz⟩ := List.append_inj' hy rfl
    rwa [List.singleton_inj.mp hxz]

end Activity

/-- Two passes are in flight at some time of a run exactly if some pass is started while another
starter has one in flight; no starter ever has two. -/
theorem passes_overlap_iff (h : Host) (watcher : Watch.Watcher)
    (hw : ∀ f, watcher.callback? f = none) (xs : List Action)
    (run : Activity.Run ⟨.start h watcher, none⟩ xs) :
    (Activity.after ⟨.start h watcher, none⟩ xs).inFlight.Nodup ∧
    ((∃ r, r <+: xs ∧ 1 < (Activity.after ⟨.start h watcher, none⟩ r).inFlight.length) ↔
      ∃ r x t, xs = r ++ x :: t ∧ ∃ v w,
        (Activity.after ⟨.start h watcher, none⟩ r).starter? x = some w ∧
        v ∈ (Activity.after ⟨.start h watcher, none⟩ r).inFlight ∧ v ≠ w) := by
  refine ⟨(run.sound hw).nodup_inFlight, ?_, ?_⟩
  · rintro ⟨r, hr, hlen⟩
    obtain ⟨r', x, t, rfl, hstart⟩ := (run.of_prefix hr).exists_start hw hlen
    obtain ⟨t', rfl⟩ := hr
    exact ⟨r', x, t ++ t', by simp, hstart⟩
  · rintro ⟨r, x, t, rfl, v, w, hstart, hv, -⟩
    have hpre : r ++ [x] <+: r ++ x :: t := ⟨t, by simp⟩
    have hsound := (run.of_prefix ⟨x :: t, rfl⟩).sound hw
    have hperm := hsound.inFlight_act (run.allows hpre)
    rw [hstart] at hperm
    refine ⟨r ++ [x], hpre, ?_⟩
    rw [Activity.after_concat, hperm.length_eq, List.length_cons]
    have hpos := List.length_pos_of_mem hv
    omega

/-- A host that watches its sources. -/
def watchful : Host :=
  let h := Host.new ⟨"/w", "/tmp", "/r", none⟩ (.empty ["w"]) ⟨2024, 1, 2, 3, 4, 5, 0⟩ (.ofInt 0)
  { h with options := h.options.set .allowDynamicRecompile (.flag true) }

/-- A source changes two seconds after a compile call began, while its first pass is in flight. -/
def changeDuringCall : List Action :=
  [.call "/w" ["a.soy"] 0, .elapse (.ofInt 2) watchful.now watchful.tree,
    .change ⟨0, "/w/a.soy", "a.soy"⟩, .turn 0, .turn 0]

def idle : Activity := ⟨.start watchful (.table [] .empty), none⟩

theorem callback?_changeDuringCall :
    (idle.after (changeDuringCall.take 2)).session.watch.watcher.callback? "/w/a.soy" =
      some ⟨0, "/w/a.soy", "a.soy"⟩ := rfl

theorem run_changeDuringCall : idle.Run changeDuringCall := by
  have h₁ : idle.Run (changeDuringCall.take 1) := .next .start (.call "/w" ["a.soy"] 0) rfl
  have h₂ : idle.Run (changeDuringCall.take 2) := h₁.next (.elapse _ _ _) trivial
  have h₃ : idle.Run (changeDuringCall.take 3) := h₂.next _ ⟨_, callback?_changeDuringCall⟩
  have h₄ : idle.Run (changeDuringCall.take 4) := h₃.next (.turn 0) trivial
  exact h₄.next (.turn 0) trivial

/-- The call's scheduler does not wait for the call's first pass. -/
theorem passes_overlap_iff_changeDuringCall :
    idle.Run changeDuringCall ∧ (idle.after changeDuringCall).inFlight = [.call, .scheduler 0] ∧
    ∃ r x t, changeDuringCall = r ++ x :: t ∧ ∃ v w,
      (idle.after r).starter? x = some w ∧ v ∈ (idle.after r).inFlight ∧ v ≠ w := by
  have hboth : (idle.after changeDuringCall).inFlight = [.call, .scheduler 0] := by decide +kernel
  have hiff := (passes_overlap_iff watchful (.table [] .empty) (fun _ => rfl) changeDuringCall
    run_changeDuringCall).2
  have hlen : 1 < (idle.after changeDuringCall).inFlight.length := by
    rw [hboth]
    decide
  exact ⟨run_changeDuringCall, hboth, hiff.mp ⟨changeDuringCall, List.prefix_rfl, hlen⟩⟩

end TemplateHost.Session
