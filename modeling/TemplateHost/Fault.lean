import TemplateHost.Text.Quoted
import TemplateHost.Value.Basic

/-!
# Faults of running code

Why a module, a template or a library function stopped. Each fault has the name of its kind and a
message; the wording of both is fixed here.
-/
namespace TemplateHost

inductive Fault where
  | undefinedName (name : String)
  | undeclaredNamespace (head : String)
  /-- The owner is given as it appears in the message. -/
  | missingMember (owner member : String)
  /-- The key is given in its literal form. -/
  | missingKey (key : String)
  | tiedDelegates (id variant : String)
  | noDelegate (id variant : String)
  | unexpectedNull
  | raised (kind message : String)
  | mismatch (message : String)
  | tooLarge (message : String)
  | undefinedInteger
  | notAPair (index length : Nat)
  | tooDeep
  | nullInPath
  | invalidSyntax (file : String) (line : Nat)
deriving DecidableEq

namespace Fault

/-- The fault of code that raises on purpose. -/
def ofRaise (kind message : String) : Fault :=
  if kind = "KeyError" then .missingKey (Text.quoted message) else .raised kind message

def kind : Fault → String
  | undefinedName _ | undeclaredNamespace _ => "NameError"
  | missingMember _ _ => "AttributeError"
  | missingKey _ => "KeyError"
  | tiedDelegates _ _ | unexpectedNull | undefinedInteger | notAPair _ _
  | nullInPath => "ValueError"
  | noDelegate _ _ => "LookupError"
  | raised kind _ => kind
  | mismatch _ => "TypeError"
  | tooLarge _ => "OverflowError"
  | tooDeep => "RecursionError"
  | invalidSyntax _ _ => "SyntaxError"

def message : Fault → String
  | undefinedName name => "name '" ++ name ++ "' is not defined"
  | undeclaredNamespace head => "Top-level namespace '" ++ head ++ "' is not declared"
  | missingMember owner member => owner ++ " has no attribute '" ++ member ++ "'"
  | missingKey key => key
  | tiedDelegates id variant =>
    "Encountered two active delegates with the same priority (\"" ++ id ++ ":" ++ variant ++ "\")"
  | noDelegate id variant =>
    "Found no active impl for delegate call to \"" ++ id ++ ":" ++ variant
      ++ "\" (and not allow_empty_default=True)"
  | unexpectedNull => "unexpected null value"
  | raised _ message => message
  | mismatch message => message
  | tooLarge message => message
  | undefinedInteger => "cannot convert float NaN to integer"
  | notAPair index length =>
    "dictionary update sequence element #" ++ toString index ++ " has length " ++ toString length
      ++ "; 2 is required"
  | tooDeep => "maximum recursion depth exceeded"
  | nullInPath => "embedded null byte"
  | invalidSyntax file line =>
    "invalid syntax (" ++ file ++ ", line " ++ toString line ++ ")"

/-- Kind and message, as they appear in reports about modules that failed. -/
def summary (f : Fault) : String := f.kind ++ ": " ++ f.message

end Fault

/-- How objects appear in texts: their literal form and the name of their type. -/
structure Describer where
  literal : ObjectId → String
  typeName : ObjectId → String

end TemplateHost
