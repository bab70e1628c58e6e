import TemplateHost.Code.Support
import TemplateHost.Text.Newline

/-!
# Sources

A source is the text of a file read as code: generated modules, possibly with other text before,
between or after them. Other text holds code only as comments. A source that is malformed anywhere
does not run at all.
-/
namespace TemplateHost

inductive Passage where
  | text (s : String)
  | module (m : Module)

abbrev Source := List Passage

/-- Whether a line holds nothing but a comment. -/
def isIdleLine (line : List Char) : Bool :=
  match line.dropWhile fun c => c = ' ' ∨ c = '\t' ∨ c = '\x0c' with
  | [] => true
  | c :: _ => c = '#' || c = '\r'

namespace Passage

/-- How many line ends a passage has: a module has one for its header and one for each statement. -/
def lineEnds : Passage → Nat
  | .text s => s.toList.count '\n'
  | .module m => m.statements.length + 1

/-- The first malformed line, counted from zero. -/
def malformedLine? : Passage → Option Nat
  | .text s => (Text.splitAt '\n' s.toList).findIdx? fun line => !isIdleLine line
  | .module m => (m.statements.findIdx? Statement.isMalformed).map (· + 1)

def statements : Passage → List Statement
  | .text _ => []
  | .module m => m.statements

end Passage

namespace Source

def malformedLineFrom? (start : Nat) : Source → Option Nat
  | [] => none
  | p :: r => match p.malformedLine? with
    | some n => some (start + n)
    | none => malformedLineFrom? (start + p.lineEnds) r

/-- The first malformed line, counted from one. -/
def malformedLine? (s : Source) : Option Nat := malformedLineFrom? 1 s

def statements (s : Source) : List Statement := s.flatMap Passage.statements

end Source

namespace Run

def define (k : ScopeId) (t : Template) : Run Value := add (.ofForm (.template t k))

def runStatement (k : ScopeId) : Statement → Run Unit
  | .provide name declareTop => do
    let f ← global k "provide"
    let choice := match declareTop with
      | some false => [Value.bool false]
      | _ => []
    discard (call f (.str name :: choice))
  | .template path t => do assign k path (← define k t)
  | .delegate id variant priority t => do
    let f ← define k t
    let register ← interfaceMember k "register_delegate_fn"
    discard (call register [.str id, variant, priority, f])
  | .assign name v => assign k name v
  | .newNamespace name => do assign k name (← newNamespace k)
  | .raise kind message => raise kind message
  | .malformed => throw (.invalidSyntax "" 0)
  | .support part => install k part

/-- The name under which code finds the functions that every scope has. -/
def builtinsName : String := "__builtins__"

def bindBuiltins (k : ScopeId) : Run Unit := do
  match ← global? k builtinsName with
  | some _ => return ()
  | none => bindForeign k [(builtinsName, "dict")]

/-- Runs a source; `file` is its base name, which a report on malformed code shows. -/
def runSource (k : ScopeId) (file : String) (s : Source) : Run Unit := do
  match s.malformedLine? with
  | some line => throw (.invalidSyntax file line)
  | none =>
    bindBuiltins k
    s.statements.forM (runStatement k)

end Run

end TemplateHost
