import TemplateHost.Failure

/-!
# The log

What the host reports while it goes on. Entries from workers that copy files may arrive at any time;
they are shown before all others, in ascending order.
-/
namespace TemplateHost

inductive LogEntry where
  | copyFailed (path : String) (kind : FileErrorKind)
  | lookupFailed (kind : FileErrorKind)
  | reused (count : Nat)
  | compilerFailed (output : String)
  | concatFailed (kind : FileErrorKind)
  | eraseFailed (directory : String) (kind : FileErrorKind)
  | passFailed (error : String)
  | passDone
  | listenerFailed
  | watchFailed (path : String) (kind : FileErrorKind)
  | changed (path : String)
  | recompiling (files : List String)
  | recompileFailed (files : List String)
  | changeDropped (path : String)

namespace LogEntry

inductive Level where
  | debug
  | info
  | warning
  | error

def Level.name : Level → String
  | .debug => "DEBUG"
  | .info => "INFO"
  | .warning => "WARNING"
  | .error => "ERROR"

def level : LogEntry → Level
  | .changeDropped _ => .debug
  | .reused _ | .passDone | .changed _ | .recompiling _ => .info
  | .copyFailed _ _ | .concatFailed _ | .eraseFailed _ _ | .watchFailed _ _ => .warning
  | .lookupFailed _ | .compilerFailed _ | .passFailed _ | .listenerFailed
  | .recompileFailed _ => .error

def logger : LogEntry → String
  | .copyFailed _ _ | .lookupFailed _ | .reused _ => "soypy.cache"
  | .compilerFailed _ => "soypy.process"
  | .concatFailed _ | .eraseFailed _ _ | .passFailed _ | .passDone => "soypy.compiler"
  | .listenerFailed => "soypy.events"
  | .watchFailed _ _ | .changed _ | .recompiling _ | .recompileFailed _
  | .changeDropped _ => "soypy.watch"

def fileList (files : List String) : String :=
  "[" ++ Text.join ", " (files.map Text.quoted) ++ "]"

def message : LogEntry → String
  | .copyFailed path kind => "Error copying precompiled file " ++ path ++ ": " ++ kind.name
  | .lookupFailed kind => "Failed loading precompiled files: " ++ kind.name
  | .reused count => "Loaded " ++ toString count ++ " precompiled files"
  | .compilerFailed output => "Compile error\n" ++ output
  | .concatFailed kind => "Error concatenating files: " ++ kind.name
  | .eraseFailed directory kind =>
    "Error deleting temporary files " ++ directory ++ ": " ++ kind.name
  | .passFailed error => error
  | .passDone => "Done"
  | .listenerFailed => "Error in compile listener"
  | .watchFailed path kind => "Error watching " ++ path ++ ": " ++ kind.name
  | .changed path => "Caught change to " ++ path
  | .recompiling files => "Recompiling templates due to change in " ++ fileList files
  | .recompileFailed files => "Error recompiling " ++ fileList files
  | .changeDropped path => "Event loop closed; dropping change to " ++ path

def text (e : LogEntry) : String := e.level.name ++ " " ++ e.logger ++ ": " ++ e.message

def isFromWorker : LogEntry → Bool
  | .copyFailed _ _ => true
  | _ => false

/-- How a problem appears in the log: file errors by their kind alone. -/
def problemText : Problem → String
  | .file e => e.kind.name
  | p => p.message

def lines (log : List LogEntry) : List String :=
  let (workers, others) := log.partition isFromWorker
  (workers.map text).mergeSort (fun a b => !decide (b < a)) ++ others.map text

end LogEntry

end TemplateHost
