import TemplateHost.Fault
import TemplateHost.Files.Tree
import TemplateHost.Text.Blank
import TemplateHost.Text.Search

/-!
# Failures of the pipeline

What callers of the pipeline are told when something goes wrong. Each failure has a kind, a message
and, except for the general one, a code under which it is documented.
-/
namespace TemplateHost

inductive ErrorCode where
  | invalidOption
  | loadingDisabled
  | compilerUnset
  | compilerFailed
  | compilerSpawn
  | moduleUnreadable
  | moduleExecution
  | unknownTemplate
deriving DecidableEq

namespace ErrorCode

def all : List ErrorCode :=
  [.invalidOption, .loadingDisabled, .compilerUnset, .compilerFailed, .compilerSpawn,
   .moduleUnreadable, .moduleExecution, .unknownTemplate]

def text : ErrorCode → String
  | .invalidOption => "S-CFG-001"
  | .loadingDisabled => "S-CFG-002"
  | .compilerUnset => "S-CFG-003"
  | .compilerFailed => "S-CMP-001"
  | .compilerSpawn => "S-CMP-002"
  | .moduleUnreadable => "S-LOD-001"
  | .moduleExecution => "S-LOD-002"
  | .unknownTemplate => "S-LOD-003"

def name : ErrorCode → String
  | .invalidOption => "INVALID_OPTION"
  | .loadingDisabled => "LOADING_DISABLED"
  | .compilerUnset => "COMPILER_UNSET"
  | .compilerFailed => "COMPILER_FAILED"
  | .compilerSpawn => "COMPILER_SPAWN"
  | .moduleUnreadable => "MODULE_UNREADABLE"
  | .moduleExecution => "MODULE_EXECUTION"
  | .unknownTemplate => "UNKNOWN_TEMPLATE"

def category : ErrorCode → String
  | .invalidOption | .loadingDisabled | .compilerUnset => "configuration"
  | .compilerFailed | .compilerSpawn => "compiler"
  | .moduleUnreadable | .moduleExecution | .unknownTemplate => "loading"

def docsPage : String := "https://soypy.readthedocs.io/en/latest/errors.html"

def docsUrl (c : ErrorCode) : String :=
  docsPage ++ "#" ++ String.ofList (c.text.toList.map Char.toLower)

def ofText? (s : String) : Option ErrorCode := all.find? fun c => c.text = s

theorem ofText?_text (c : ErrorCode) : ofText? c.text = some c := by cases c <;> decide

end ErrorCode

inductive Failure where
  | general (message : String)
  | configuration (message : String) (code : ErrorCode)
  /-- There is no exit code if the compiler never started. -/
  | compilation (stderr : String) (exitCode : Option Int)
  | loading (path reason : String) (code : ErrorCode)
  | unknownTemplate (name : String) (suggestion : Option String)
deriving DecidableEq

namespace Failure

def kind : Failure → String
  | .general _ => "SoyError"
  | .configuration _ _ => "ConfigurationError"
  | .compilation _ _ => "CompileProcessError"
  | .loading _ _ _ => "LoadError"
  | .unknownTemplate _ _ => "UnknownTemplateError"

def code? : Failure → Option ErrorCode
  | .general _ => none
  | .configuration _ c => some c
  | .compilation _ none => some .compilerSpawn
  | .compilation _ (some _) => some .compilerFailed
  | .loading _ _ c => some c
  | .unknownTemplate _ _ => some .unknownTemplate

/-- What the compiler wrote, unless it is blank, follows on lines of its own. -/
def withOutput (message stderr : String) : String :=
  if stderr.toList.all Text.isBlank then message
  else message ++ "\n" ++ String.ofList (Text.trimRight stderr.toList)

def message : Failure → String
  | .general m => m
  | .configuration m _ => m
  | .compilation stderr none =>
    withOutput "Error compiling templates (compiler did not start)" stderr
  | .compilation stderr (some n) =>
    withOutput ("Error compiling templates (exit code " ++ toString n ++ ")") stderr
  | .loading path reason _ => "Error loading " ++ path ++ ": " ++ reason
  | .unknownTemplate name suggestion =>
    let base := "Unknown template [" ++ name ++ "]"
    match suggestion with
    | none => base
    | some s => if s = "" then base else base ++ ". Did you mean '" ++ s ++ "'?"

/-- A short report: the message, headed by the code unless it names the code itself, and where the
code is documented. -/
def compact (f : Failure) : String :=
  match f.code? with
  | none => f.message
  | some c =>
    let header :=
      if (Text.indexOf? c.text.toList f.message.toList).isSome then f.message
      else c.text ++ ": " ++ f.message
    header ++ "\n  Docs: " ++ c.docsUrl

def invalidOption (key : String) : Failure :=
  .configuration ("Invalid option key [" ++ key ++ "]") .invalidOption

def loadingDisabled : Failure :=
  .configuration "Cannot load template, try with `load_compiled_templates=True`" .loadingDisabled

def compilerUnset : Failure :=
  .configuration "No template compiler configured, set `compiler_command` or `compiler_class`"
    .compilerUnset

end Failure

/-- Everything that can end an operation of the pipeline early. -/
inductive Problem where
  | failure (f : Failure)
  | file (e : FileError)
  | undecodable (u : Text.Utf8.Failure)
  | fault (f : Fault)
  /-- Nothing went wrong, but it is not to go on. -/
  | cancelled
deriving DecidableEq

namespace Problem

def kind : Problem → String
  | .failure f => f.kind
  | .file e => e.kind.name
  | .undecodable _ => "UnicodeDecodeError"
  | .fault f => f.kind
  | .cancelled => "CancelledError"

def message : Problem → String
  | .failure f => f.message
  | .file e => e.message
  | .undecodable u => u.message
  | .fault f => f.message
  | .cancelled => ""

/-- Failures and file errors end a pass in an orderly way. -/
def isReported : Problem → Bool
  | .failure _ | .file _ => true
  | .undecodable _ | .fault _ | .cancelled => false

end Problem

end TemplateHost
