import TemplateHost.Host.State

/-!
# The pipeline

One pass compiles what is dirty and then, for one locale after the other, joins the output and loads
it into the locale's context. It announces its end once, and erases its output if that is wanted and
nothing went wrong.
-/
namespace TemplateHost

/-- A stage of a pass: it may pause, and a problem ends it early. -/
abbrev Stage := ExceptT Problem (Flow Host)

namespace Stage

def host : Stage Host := ExceptT.lift Flow.read

def update (f : Host → Host) : Stage Unit := ExceptT.lift (Flow.update f)

def pause : Stage Unit := ExceptT.lift Flow.pause

/-- An uninterrupted step that may fail. What it did stays. -/
def attempt {α : Type} (f : Host → Except Problem α × Host) : Stage α :=
  ExceptT.mk (Flow.atomic f)

end Stage

namespace Pipeline
open Stage

/-- Starts the compiler and judges how it ended. -/
def compile (args : List String) (cwd : String) (h : Host) : Except Problem Unit × Host :=
  let h := { h with spawns := h.spawns ++ [Spawn.mk args cwd] }
  match h.compiler args cwd h.tree with
  | .error (.refused e) =>
    (.error (.failure (.compilation e.message none)), h.report [.compilerFailed e.kind.name])
  | .error (.invalid f) => (.error (.fault f), h)
  | .ok (exit, tree) =>
    let h := { h with tree := tree }
    if exit.status = 0 then (.ok (), h)
    else
      let output := Text.Utf8.decodeLossy exit.stderr
      (.error (.failure (.compilation output (some exit.status))),
        h.report [.compilerFailed output])

def compileDirty (plan : Plan) (dirty : List String) : Stage Unit := do
  if dirty.isEmpty then return ()
  let h ← host
  match Invocation.arguments h.options plan.outputDir dirty with
  | .error e => throw (.failure e)
  | .ok args => attempt (compile args plan.inputDir)

def readAll (h : Host) (paths : List String) : Except Problem Source :=
  (paths.mapM h.readSource).map List.flatten

def writeConcat (target : String) (s : Source) (h : Host) : Except Problem Unit × Host :=
  match h.tree.write (Path.tidy target) (Content.ofSource s) with
  | .ok tree => (.ok (), { h with tree := tree })
  | .error kind => (.error (.file ⟨kind, some (Path.tidy target)⟩), h)

/-- Joins files; file errors are logged and change nothing else. -/
def concatInto (paths : List String) (target : String) (h : Host) : Except Problem Unit × Host :=
  let result : Except Problem Unit × Host := match readAll h paths with
    | .ok s => writeConcat target s h
    | .error p => (.error p, h)
  match result with
  | (.error (.file e), h) => (.ok (), h.report [.concatFailed e.kind])
  | r => r

def concat (plan : Plan) (paths : List String) (locale : String) : Stage Unit := do
  let h ← host
  if !h.options.flag .concatOutput then return ()
  let result ← ExceptT.lift (Flow.atomic
    (concatInto paths (Layout.concatFile h.options plan.outputDir (some locale))))
  pause
  liftExcept result
where
  liftExcept : Except Problem Unit → Stage Unit
    | .ok () => pure ()
    | .error p => throw p

/-- Reads the files of a batch; others may go on meanwhile. -/
def fetchBatch (paths : List String) : Stage (List Context.Fetched) := do
  let h ← host
  let paths := h.options.texts .contextPaths ++ paths
  let fetched := paths.map h.fetch
  if !paths.isEmpty then pause
  return fetched

def onContext (locale : String) (f : Context → Except Failure Unit × Context) : Stage Unit :=
  attempt fun h =>
    let (r, h) := h.onContext (some locale) f
    (r.mapError .failure, h)

/-- Makes a context ready for a batch: its support code runs, or its registries are emptied. -/
def prepare (locale : String) : Stage Unit := do
  let h ← host
  if (h.context (some locale)).initialized then
    onContext locale fun c => (.ok (), c.resetRegistries)
  else
    let fetched ← attempt fun h =>
      let (fetched, h) := Host.fetchAllSupport h.supportPaths h
      (.ok fetched, h)
    pause
    onContext locale fun c => c.runSupport fetched

/-- Loads context files and modules, in order, into the context of a locale. -/
def load (locale : String) (paths : List String) : Stage Unit := do
  prepare locale
  let batch ← fetchBatch paths
  onContext locale fun c => c.loadBatch batch

def postCompile (plan : Plan) (locale : String) : Stage Unit := do
  let h ← host
  let paths := plan.files.map fun f => Layout.outputFile h.options plan.outputDir f (some locale)
  concat plan paths locale
  if (← host).loading then load locale paths

def postCompileAll (plan : Plan) : List String → Stage Unit
  | [] => return ()
  | locale :: r => do
    postCompile plan locale
    postCompileAll plan r

def stages (plan : Plan) (dirty : List String) : Stage Unit := do
  compileDirty plan dirty
  postCompileAll plan (← host).options.targets

/-- Erases the output of a pass that is not to be kept. File errors are logged. -/
def eraseOutput (plan : Plan) (h : Host) : Except Problem Unit × Host :=
  if !h.options.flag .eraseTemporaryFiles || h.options.flag .allowDynamicRecompile then (.ok (), h)
  else if Path.hasNull plan.outputDir then (.error (.fault .nullInPath), h)
  else match h.tree.removeTree plan.outputDir with
    | .ok tree => (.ok (), { h with tree := tree })
    | .error kind => (.ok (), h.report [.eraseFailed plan.outputDir kind])

/-- The end of a pass that has an outcome to announce, and then returns it. -/
def conclude (plan : Plan) (error : Option Problem) (h : Host) :
    Except Problem (Option Problem) × Host :=
  match h.emit plan.channel error, error with
  | (.error p, h), _ => (.error p, h)
  | (.ok (), h), some p => (.ok (some p), h)
  | (.ok (), h), none =>
    let (r, h) := eraseOutput plan h
    (r.map fun _ => none, h)

/-- A whole pass. It returns the problem that it announced; a problem that is not for announcing
escapes. -/
def pass (plan : Plan) (dirty : List String) : Stage (Option Problem) := do
  match ← ExceptT.lift (stages plan dirty).run with
  | .ok () => attempt (conclude plan none)
  | .error p => if p.isReported then attempt (conclude plan (some p)) else throw p

end Pipeline

end TemplateHost
