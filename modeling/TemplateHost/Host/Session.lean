import TemplateHost.Files.Discovery
import TemplateHost.Host.Pipeline
import TemplateHost.Watch.Loop

/-!
# Sessions

A host at work, together with the watching of its sources. A compile call runs a first pass and, if
dynamic recompilation is on, has a scheduler watch its sources; every change that is accepted leads
to a pass over the files that changed.
-/
namespace TemplateHost

abbrev Time := Number.Binary64

/-- The problem that a pass announced, if any, or the cancellation that ended the pass. -/
abbrev PassResult := Except Problem (Option Problem)

abbrev Session := Watch.Loop Time Host PassResult

namespace Session

/-- The least time between two accepted changes of a file. -/
def debounce : Time := .ofInt 1

/-- What a scheduler gets from a pass. Errors that a pass raises are absorbed; a cancellation is
none. -/
def passResult : Except Problem (Option Problem) → Option PassResult
  | .ok error => some (.ok error)
  | .error .cancelled => some (.error .cancelled)
  | .error _ => none

def recompile (p : Watch.Pass) (h : Host) : Watch.Beginning Host PassResult :=
  match h.plans[p.scheduler]? with
  | none => .going (.done none h)
  | some plan =>
    .going (((Pipeline.pass plan p.files).run h).bind fun r h => .done (passResult r) h)

def environment : Watch.Environment Time Host PassResult where
  clock := Host.clock
  report log h := h.report log
  begin _ := recompile

def start (h : Host) (watcher : Watch.Watcher) : Session :=
  ⟨.new h.surroundings.cwd watcher, h, [], .empty⟩

def updateHost (s : Session) (f : Host → Host) : Session := { s with env := f s.env }

def watchSources (s : Session) (plan : Plan) : Session :=
  if !s.env.options.flag .allowDynamicRecompile then s
  else
    let (k, watch) := s.watch.addScheduler plan.inputDir debounce
    let (log, watch) := watch.watchAll k s.env.clock plan.files
    let env := { s.env with plans := s.env.plans ++ [plan] }
    { s with watch := watch, env := env.report log }

/-- What a compile call does up to its first pass, and that pass, which goes over what cannot be
reused. -/
def prepareCall (s : Session) (inputDir : String) (files : List String) (channel : ChannelId) :
    Stage (Option Problem) × Session :=
  let plan : Plan := ⟨inputDir, Layout.runDirectory s.env.options s.env.now, files, channel⟩
  let (dirty, p) := Reuse.filterDirty s.env.options plan.outputDir files none (fun _ => false)
    s.env.tree
  let s := s.updateHost fun h => { h with tree := p.tree }.report p.log
  (Pipeline.pass plan dirty, s.watchSources plan)

/-- A compile call raises the problem that its pass announced. -/
def raised : Option Problem → Except Problem Unit
  | none => .ok ()
  | some p => .error p

/-- A compile call during which nothing else happens. -/
def compileFrom (s : Session) (inputDir : String) (files : List String) (channel : ChannelId) :
    Except Problem Unit × Session :=
  let (first, s) := s.prepareCall inputDir files channel
  let (r, h) := Flow.run first.run s.env
  (r.bind raised, { s with env := h })

def sourceExtension : String := "soy"

def compiledExtension : String := sourceExtension ++ generatedSuffix

/-- Announces how a compile call ends that comes to no pass. -/
def announce (s : Session) (channel : ChannelId) (error : Option Problem) :
    Except Problem Unit × Session :=
  let (r, h) := s.env.emit channel error
  (r.bind fun _ => raised error, { s with env := h })

def compileTemplates (s : Session) (inputDir : String) (listener : Option PassListener) :
    Except Problem Unit × Session :=
  let (channel, h) := s.env.openChannel listener
  let s : Session := { s with env := h }
  match s.env.tree.findFiles inputDir sourceExtension with
  | .error p => if p.isReported then s.announce channel (some p) else (.error p, s)
  | .ok [] => s.announce channel none
  | .ok files => s.compileFrom inputDir files channel

def compileTemplateFiles (s : Session) (files : List String) (listener : Option PassListener) :
    Except Problem Unit × Session :=
  let (channel, h) := s.env.openChannel listener
  let s : Session := { s with env := h }
  s.compileFrom (s.env.options.text .inputDir) files channel

def loadFiles (s : Session) (files : List String) (locale : Option String) :
    Except Problem Unit × Session :=
  let (r, h) := Flow.run (Pipeline.load (Layout.localeOrDefault locale) files).run s.env
  (r, { s with env := h })

def loadDirectory (s : Session) (directory : String) (locale : Option String) :
    Except Problem Unit × Session :=
  match s.env.tree.findFiles directory compiledExtension with
  | .error p => (.error p, s)
  | .ok files => s.loadFiles (files.map (Path.under directory)) locale

def setOptions (s : Session) (overrides : Table String Setting) :
    Except Failure Unit × Session :=
  let (r, o) := s.env.options.merge s.env.surroundings.cwd overrides
  (r, s.updateHost fun h => { h with options := o })

/-- Reports changes to watched files in one turn of the loop, and runs until nothing can go on. -/
def notifyAll (s : Session) (changes : List Watch.Callback) :
    List Watch.NotificationId × Session :=
  let first := s.watch.notifications.length
  let s := changes.foldl (fun s c => (s.notify c).2) s
  ((List.range changes.length).map (first + ·), s.runUntilIdle environment 100000)

/-- What the handling of a notification returned or raised. -/
def resultOf (s : Session) (n : Watch.NotificationId) : Option Problem :=
  match s.watch.notifications[n]? with
  | some ⟨_, .finished (some (.ok error))⟩ => error
  | some ⟨_, .finished (some (.error p))⟩ => some p
  | _ => none

/-- The callbacks of the files among some paths that a watcher reports changes of. -/
def callbacksOf (s : Session) (paths : List String) : List Watch.Callback :=
  match s.watch.watcher with
  | .table _ callbacks => paths.filterMap callbacks.get?
  | .live _ w =>
    let w := paths.foldl (fun w p => (w.dispatch p).2) w
    w.takeQueued.1.filterMap Except.toOption

def change (s : Session) (paths : List String) : List (Option Problem) × Session :=
  let (ns, s) := s.notifyAll (s.callbacksOf paths)
  (ns.map s.resultOf, s)

/-- Stops watching. A later compile call registers its sources again. -/
def close (s : Session) : Session := { s with watch := s.watch.close }

end Session

end TemplateHost
