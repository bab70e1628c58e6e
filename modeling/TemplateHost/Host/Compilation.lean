import TemplateHost.Files.Tree
import TemplateHost.Options.Invocation

/-!
# The compiler process

A compiler is started in a directory with a command line, of which it reads the locales, the pattern
of its output paths and the sources. For each locale and each source in order it writes a module, or
stops. What was written before a stop stays.
-/
namespace TemplateHost.Compilation

/-- What a compiler takes from its command line. -/
structure Request where
  /-- A single missing locale if none are named. -/
  locales : List (Option String)
  declareTop : Bool
  outputPattern : String
  sources : List String

def after (flag : String) : List String → List String
  | [] => []
  | arg :: rest => if arg = flag then rest else after flag rest

def before (flag : String) (args : List String) : List String := args.takeWhile (· ≠ flag)

def splitCommas (s : String) : List String := (Text.splitAt ',' s.toList).map String.ofList

def Request.ofArguments (args : List String) : Request :=
  let tail := after Invocation.outputPatternFlag args
  let options := before Invocation.outputPatternFlag args
  { locales := match (after "--locales" options).head? with
      | some l => (splitCommas l).map some
      | none => [none]
    declareTop := (after "--shouldDeclareTopLevelNamespaces" options).head? ≠ some "false"
    outputPattern := tail.head?.getD ""
    sources := tail.tail }

def fillPattern (pattern source : String) (locale : Option String) : String :=
  let localized := Text.replaceAll pattern Layout.localeField (locale.getD "")
  let placed := Text.replaceAll localized Layout.directoryField (Path.directory source)
  Text.replaceAll placed Layout.nameField (Path.base source)

def headerOf (source : String) : Option String → String
  | some l => source ++ " " ++ l
  | none => source

def moduleFor (declareTop : Bool) (source : String) (locale : Option String)
    (statements : List Statement) : Module :=
  ⟨headerOf source locale,
    statements.map fun s => (s.localize (locale.getD "")).settle declareTop⟩

/-- How the process ended. -/
structure Exit where
  status : Int
  stderr : List UInt8

def Exit.success : Exit := ⟨0, []⟩

def notFound (source : String) : Exit :=
  ⟨1, Text.Utf8.encode ("standin: error: file not found: " ++ source ++ "\n")⟩

def sourceAt (t : FileTree) (cwd source : String) : Option TemplateSource :=
  match t.content (Path.under cwd source) with
  | .ok c => some ((Content.source? c).getD .skip)
  | .error _ => none

/-- Compiles one source for one locale; the process goes on if there is no exit. -/
def compileOne (r : Request) (cwd : String) (locale : Option String) (source : String)
    (t : FileTree) : Option Exit × FileTree :=
  match sourceAt t cwd source with
  | none => (some (notFound source), t)
  | some (.stop status stderr) => (some ⟨status, stderr⟩, t)
  | some .skip => (none, t)
  | some (.module statements) =>
    let target := Path.normalize (Path.under cwd (fillPattern r.outputPattern source locale))
    let m := moduleFor r.declareTop source locale statements
    match t.writeNested target (Content.ofModule m) with
    | .ok t => (none, t)
    | .error kind => (some ⟨1, Text.Utf8.encode (kind.name ++ "\n")⟩, t)

def compileSources (r : Request) (cwd : String) (locale : Option String) :
    List String → FileTree → Option Exit × FileTree
  | [], t => (none, t)
  | source :: rest, t =>
    match compileOne r cwd locale source t with
    | (none, t) => compileSources r cwd locale rest t
    | stopped => stopped

def compileLocales (r : Request) (cwd : String) :
    List (Option String) → FileTree → Option Exit × FileTree
  | [], t => (none, t)
  | locale :: rest, t =>
    match compileSources r cwd locale r.sources t with
    | (none, t) => compileLocales r cwd rest t
    | stopped => stopped

/-- Why a compiler was not started: the system refuses to, or cannot even be asked to. -/
inductive StartError where
  | refused (e : FileError)
  | invalid (f : Fault)

/-- Programs that cannot be found have names that begin so. -/
def missingProgram : List Char := "no-such".toList

/-- Starts the compiler and waits for its end. The working directory is looked up before the
program. -/
def start (args : List String) (cwd : String) (t : FileTree) :
    Except StartError (Exit × FileTree) :=
  let program := args.head?.getD ""
  if !t.isDirectory cwd then .error (.refused ⟨.notFound, some cwd⟩)
  else if missingProgram.isPrefixOf program.toList then
    .error (.refused ⟨.notFound, some program⟩)
  else
    let r := Request.ofArguments args
    let (exit, t) := compileLocales r cwd r.locales t
    .ok (exit.getD .success, t)

end TemplateHost.Compilation
