import TemplateHost.Fault
import TemplateHost.Files.Tree

/-!
# Watching files

A watcher calls one callback for each watched file when the file changes. An observer reports the
events of whole directories; it is started with the first file. Changes of watched files are handed
to the event loop, which runs the callback that it finds when its turn comes.
-/
namespace TemplateHost

inductive ObserverCall where
  | start
  | stop
  | join
  | schedule (directory : String)
deriving DecidableEq

inductive EventType where
  | modified
  | created
  | moved
  | deleted
  | closed
  | opened

structure FileEvent where
  type : EventType
  source : String
  target : String
  isDirectory : Bool

namespace FileEvent

/-- The file that an event changes: for a move the one moved onto. -/
def changed? (e : FileEvent) : Option String :=
  if e.isDirectory then none
  else match e.type with
    | .modified | .created => some e.source
    | .moved => some e.target
    | .deleted | .closed | .opened => none

end FileEvent

structure FileWatcher (κ : Type) where
  cwd : String
  observing : Bool
  callbacks : Table String κ
  directories : List String
  /-- Whether there has been an event loop to hand changes to. -/
  attached : Bool
  loopClosed : Bool
  /-- Changes that the event loop has yet to run. -/
  queued : List String
  calls : List ObserverCall

namespace FileWatcher
variable {κ : Type}

def new (cwd : String) : FileWatcher κ := ⟨cwd, false, .empty, [], false, false, [], []⟩

def record (w : FileWatcher κ) (calls : List ObserverCall) : FileWatcher κ :=
  { w with calls := w.calls ++ calls }

def startObserver (w : FileWatcher κ) : FileWatcher κ :=
  if w.observing then w else { w.record [.start] with observing := true }

/-- Schedules a directory unless that has been done. A refusal has no path in its message. -/
def schedule (w : FileWatcher κ) (unwatchable : String → Bool) (directory : String) :
    Except FileError (FileWatcher κ) :=
  if w.directories.contains directory then .ok w
  else if unwatchable directory then .error ⟨.notFound, none⟩
  else .ok { w.record [.schedule directory] with directories := w.directories ++ [directory] }

/-- Registers a callback for a file. If the directory is refused, only the observer has started. -/
def watch (w : FileWatcher κ) (unwatchable : String → Bool) (path : String) (callback : κ) :
    Except FileError Unit × FileWatcher κ :=
  let path := Path.absolute w.cwd path
  let w := { w with attached := true }.startObserver
  match w.schedule unwatchable (Path.directory path) with
  | .ok w => (.ok (), { w with callbacks := w.callbacks.set path callback })
  | .error e => (.error e, w)

/-- What becomes of a change that the observer reports. -/
inductive Handover where
  | ignored
  | queued
  | dropped (path : String)

/-- Hands a change over to the event loop if the file is watched. -/
def dispatch (w : FileWatcher κ) (path : String) : Handover × FileWatcher κ :=
  let path := Path.absolute w.cwd path
  if !w.callbacks.contains path || !w.attached then (.ignored, w)
  else if w.loopClosed then (.dropped path, w)
  else (.queued, { w with queued := w.queued ++ [path] })

/-- What the event loop runs for a change: the callback that the file has by then. -/
def callback (w : FileWatcher κ) (path : String) : Except Fault κ :=
  match w.callbacks.get? path with
  | some c => .ok c
  | none => .error (.missingKey (Text.quoted path))

/-- Everything that the event loop has been handed, in order. -/
def takeQueued (w : FileWatcher κ) : List (Except Fault κ) × FileWatcher κ :=
  (w.queued.map w.callback, { w with queued := [] })

/-- Stops the observer and drops all callbacks. -/
def stop (w : FileWatcher κ) : FileWatcher κ :=
  let w := if w.observing then { w.record [.stop, .join] with observing := false } else w
  { w with callbacks := .empty, directories := [] }

end FileWatcher

end TemplateHost
