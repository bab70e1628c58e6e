import TemplateHost.Channel.Basic
import TemplateHost.Context.Lookup
import TemplateHost.Flow.Outcome
import TemplateHost.Host.Compilation
import TemplateHost.Host.Reuse
import TemplateHost.Host.Support
import TemplateHost.Number.Binary64

/-!
# The host

What a host of templates keeps: its options, a context for each locale, the channels on which passes
report, and what is around it: files, and a compiler that can be started on a command line in a
directory. It records the compilers that it starts, what listeners hear, and its log.
-/
namespace TemplateHost

structure Spawn where
  arguments : List String
  directory : String

/-- Those who listen to passes: the host's own log, and listeners that record what they hear, some
of which then raise something, an error or a cancellation. -/
inductive PassListener where
  | logger
  | recorder
  | failing
  | cancelling
deriving DecidableEq

abbrev ChannelId := Nat

/-- What all passes of one compile call have in common. -/
structure Plan where
  inputDir : String
  outputDir : String
  files : List String
  channel : ChannelId

/-- A program that is started on a command line in a directory, with how it ended and the files that
it left. -/
abbrev Compiler :=
  List String → String → FileTree → Except Compilation.StartError (Compilation.Exit × FileTree)

structure Host where
  surroundings : Surroundings
  compiler : Compiler
  tree : FileTree
  now : Instant
  clock : Number.Binary64
  options : Options
  contexts : Table String Context
  /-- Sources of support files that have been read; they are read once. -/
  supportSources : Table String Source
  channels : List (Channel PassListener Problem)
  /-- The plans of the schedulers. -/
  plans : List Plan
  spawns : List Spawn
  heard : List (Option Problem)
  log : List LogEntry

namespace Host

def new (s : Surroundings) (tree : FileTree) (now : Instant) (clock : Number.Binary64) : Host where
  surroundings := s
  compiler := Compilation.start
  tree := tree
  now := now
  clock := clock
  options := .initial s
  contexts := .empty
  supportSources := .empty
  channels := []
  plans := []
  spawns := []
  heard := []
  log := []

def report (h : Host) (log : List LogEntry) : Host := { h with log := h.log ++ log }

def clearRecords (h : Host) : Host := { h with spawns := [], heard := [], log := [] }

def context (h : Host) (locale : Option String) : Context :=
  let name := Layout.localeOrDefault locale
  (h.contexts.get? name).getD (.new name)

def setContext (h : Host) (locale : Option String) (c : Context) : Host :=
  { h with contexts := h.contexts.set (Layout.localeOrDefault locale) c }

def onContext {α : Type} (h : Host) (locale : Option String) (f : Context → α × Context) :
    α × Host :=
  let (a, c) := f (h.context locale)
  (a, h.setContext locale c)

def loading (h : Host) : Bool := h.options.flag .loadCompiledTemplates

def readSource (h : Host) (path : String) : Except Problem Source :=
  match h.tree.content (Path.tidy path) with
  | .error kind => .error (.file ⟨kind, some (Path.tidy path)⟩)
  | .ok c => (Content.read c).mapError .undecodable

def fetch (h : Host) (path : String) : Context.Fetched := ⟨path, h.readSource path⟩

/-- The source of a support file, from memory if it has been read before. -/
def fetchSupport (h : Host) (path : String) : Context.Fetched × Host :=
  match h.supportSources.get? path with
  | some s => (⟨path, .ok s⟩, h)
  | none =>
    match h.readSource path with
    | .ok s => (⟨path, .ok s⟩, { h with supportSources := h.supportSources.set path s })
    | .error p => (⟨path, .error p⟩, h)

def fetchAllSupport : List String → Host → List Context.Fetched × Host
  | [], h => ([], h)
  | path :: r, h =>
    let (f, h) := h.fetchSupport path
    let (more, h) := fetchAllSupport r h
    (f :: more, h)

/-- The support files of a context, in the order in which they run. -/
def supportPaths (h : Host) : List String :=
  Support.foundationalPaths h.surroundings.runtimeDir ++ [h.options.text .soyUtilsPath]

/-- What a listener does when it is called. Its errors are reported; a cancellation is no error. -/
def hear (h : Host) (error : Option Problem) : PassListener → Except Problem Unit × Host
  | .logger => (.ok (), h.report [match error with
    | some p => .passFailed (LogEntry.problemText p)
    | none => .passDone])
  | .recorder => (.ok (), { h with heard := h.heard ++ [error] })
  | .failing => (.ok (), { h with heard := h.heard ++ [error] }.report [.listenerFailed])
  | .cancelling => (.error .cancelled, { h with heard := h.heard ++ [error] })

/-- Calls listeners, one after the other, up to one that raises what is no error. -/
def tell (error : Option Problem) : List PassListener → Host → Except Problem Unit × Host
  | [], h => (.ok (), h)
  | l :: r, h =>
    match h.hear error l with
    | (.ok (), h) => tell error r h
    | stopped => stopped

/-- Announces the end of a pass on a channel. What a listener raises that is no error ends the
announcement there, before the waits. -/
def emit (h : Host) (k : ChannelId) (error : Option Problem) : Except Problem Unit × Host :=
  match h.channels[k]? with
  | none => (.ok (), h)
  | some c =>
    match tell error c.listeners { h with channels := h.channels.modify k Channel.beginEmit } with
    | (.ok (), h) => (.ok (), { h with channels := h.channels.modify k fun c => c.endEmit error })
    | stopped => stopped

/-- A new channel. Where sources are watched, its passes are logged. -/
def openChannel (h : Host) (listener : Option PassListener) : ChannelId × Host :=
  let c : Channel PassListener Problem := .empty
  let c := if h.options.flag .allowDynamicRecompile then c.on .logger else c
  let c := match listener with
    | some l => c.on l
    | none => c
  (h.channels.length, { h with channels := h.channels ++ [c] })

end Host

end TemplateHost
