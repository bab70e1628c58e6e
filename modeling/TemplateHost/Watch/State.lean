import TemplateHost.Host.Log
import TemplateHost.Watch.FileWatcher

/-!
# Watched sources and recompile passes

Schedulers turn change notifications into passes over the files that changed. They share the times
at which changes of each file were last accepted, and the watcher that reports changes. Each
notification and each pass is a task; the functions here are single steps of such tasks.
-/
namespace TemplateHost.Watch

abbrev SchedulerId := Nat
abbrev NotificationId := Nat
abbrev PassId := Nat

/-- Whom a change of a watched file is reported to, and as what. -/
structure Callback where
  scheduler : SchedulerId
  file : String
  relative : String

/-- Where files are registered: with a plain table that refuses some of them, or a file watcher. -/
inductive Watcher where
  | table (refused : List String) (callbacks : Table String Callback)
  | live (unwatchable : List String) (w : FileWatcher Callback)

namespace Watcher

def watch (w : Watcher) (file : String) (c : Callback) : Except FileErrorKind Unit × Watcher :=
  match w with
  | .table refused callbacks =>
    if refused.contains file then (.error .permission, w)
    else (.ok (), .table refused (callbacks.set file c))
  | .live unwatchable w =>
    let (r, w) := w.watch unwatchable.contains file c
    (r.mapError (·.kind), .live unwatchable w)

def callback? (w : Watcher) (file : String) : Option Callback :=
  match w with
  | .table _ callbacks => callbacks.get? file
  | .live _ w => w.callbacks.get? file

def stop : Watcher → Watcher
  | .table refused _ => .table refused .empty
  | .live unwatchable w => .live unwatchable w.stop

end Watcher

structure Scheduler (T : Type) where
  inputDir : String
  debounce : T
  /-- Files that wait for a pass, in the order in which they were first accepted. -/
  dirty : List String
  /-- The pass in flight. -/
  current : Option PassId

/-- How far the handling of a notification has come. -/
inductive Stage (ρ : Type) where
  | arrived
  /-- Accepted; the others of the same turn of the loop go first. -/
  | accepted
  | waiting
  | owning (pass : PassId)
  | finished (result : Option ρ)

structure Notification (ρ : Type) where
  callback : Callback
  stage : Stage ρ

structure Pass where
  scheduler : SchedulerId
  files : List String
  owner : NotificationId

structure State (T ρ : Type) where
  cwd : String
  watcher : Watcher
  times : Table String T
  schedulers : List (Scheduler T)
  notifications : List (Notification ρ)
  passes : List Pass

variable {T ρ : Type}

namespace Scheduler

def new (inputDir : String) (debounce : T) : Scheduler T := ⟨inputDir, debounce, [], none⟩

def isBusy (s : Scheduler T) : Bool := s.current.isSome

def markDirty (s : Scheduler T) (file : String) : Scheduler T :=
  if s.dirty.contains file then s else { s with dirty := s.dirty ++ [file] }

end Scheduler

namespace State

def new (cwd : String) (watcher : Watcher) : State T ρ := ⟨cwd, watcher, .empty, [], [], []⟩

def addScheduler (s : State T ρ) (inputDir : String) (debounce : T) :
    SchedulerId × State T ρ :=
  (s.schedulers.length, { s with schedulers := s.schedulers ++ [.new inputDir debounce] })

def modifyScheduler (s : State T ρ) (k : SchedulerId) (f : Scheduler T → Scheduler T) :
    State T ρ :=
  { s with schedulers := s.schedulers.modify k f }

def setStage (s : State T ρ) (n : NotificationId) (stage : Stage ρ) : State T ρ :=
  { s with notifications := s.notifications.modify n fun x => { x with stage := stage } }

/-- Registers a source of a scheduler; false if it is watched already or cannot be. -/
def watch (s : State T ρ) (k : SchedulerId) (now : T) (relative : String) :
    Bool × List LogEntry × State T ρ :=
  match s.schedulers[k]? with
  | none => (false, [], s)
  | some x =>
    let file := Path.absolute s.cwd (Path.under x.inputDir relative)
    if s.times.contains file then (false, [], s)
    else match s.watcher.watch file ⟨k, file, relative⟩ with
      | (.ok (), w) => (true, [], { s with watcher := w, times := s.times.set file now })
      | (.error kind, w) => (false, [.watchFailed file kind], { s with watcher := w })

def watchAll (s : State T ρ) (k : SchedulerId) (now : T) :
    List String → List LogEntry × State T ρ
  | [] => ([], s)
  | relative :: r =>
    let (_, log, s) := s.watch k now relative
    let (more, s) := watchAll s k now r
    (log ++ more, s)

def notify (s : State T ρ) (c : Callback) : NotificationId × State T ρ :=
  (s.notifications.length, { s with notifications := s.notifications ++ [⟨c, .arrived⟩] })

/-- Whether a change is far enough from the last one accepted. -/
def isDue [Sub T] [LT T] [DecidableLT T] (last : Option T) (now debounce : T) : Bool :=
  match last with
  | some t => !decide (now - t < debounce)
  | none => true

/-- The first step of a notification: the change is dropped or its file becomes dirty. -/
def accept [Sub T] [LT T] [DecidableLT T] (s : State T ρ) (n : NotificationId) (now : T) :
    List LogEntry × State T ρ :=
  match s.notifications[n]? with
  | none => ([], s)
  | some ⟨c, _⟩ =>
    match s.schedulers[c.scheduler]? with
    | none => ([], s)
    | some x =>
      let log := [LogEntry.changed c.file]
      if isDue (s.times.get? c.file) now x.debounce then
        let s := s.modifyScheduler c.scheduler fun x => x.markDirty c.relative
        let s := { s with times := s.times.set c.file now }
        (log, s.setStage n .accepted)
      else (log, s.setStage n (.finished none))

/-- Launches a pass over everything dirty. -/
def launch (s : State T ρ) (n : NotificationId) (k : SchedulerId) (files : List String) :
    State T ρ :=
  let pass := s.passes.length
  let s := s.modifyScheduler k fun x => { x with dirty := [], current := some pass }
  let s := { s with passes := s.passes ++ [Pass.mk k files n] }
  s.setStage n (.owning pass)

/-- A later step of a notification: it waits for the pass in flight, finds that its file has been
taken care of, or launches a pass. -/
def proceed (s : State T ρ) (n : NotificationId) : List LogEntry × Option PassId × State T ρ :=
  match s.notifications[n]? with
  | none => ([], none, s)
  | some ⟨c, _⟩ =>
    match s.schedulers[c.scheduler]? with
    | none => ([], none, s)
    | some x =>
      if x.isBusy then ([], none, s.setStage n .waiting)
      else if x.dirty.isEmpty then ([], none, s.setStage n (.finished none))
      else ([.recompiling x.dirty], some s.passes.length, s.launch n c.scheduler x.dirty)

/-- The notifications of a scheduler that wait for the pass in flight. -/
def waitingFor (s : State T ρ) (k : SchedulerId) : List NotificationId :=
  (s.notifications.zipIdx.filter fun (x, _) => match x.stage with
    | .waiting => x.callback.scheduler = k
    | _ => false).map (·.2)

/-- A pass ends; the notification that launched it returns the result. -/
def endPass (s : State T ρ) (p : PassId) (result : Option ρ) : State T ρ :=
  match s.passes[p]? with
  | none => s
  | some x =>
    (s.modifyScheduler x.scheduler fun y => { y with current := none }).setStage x.owner
      (.finished result)

/-- Stops watching and forgets all times. -/
def close (s : State T ρ) : State T ρ :=
  { s with watcher := s.watcher.stop, times := .empty }

end State

end TemplateHost.Watch
