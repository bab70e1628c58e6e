import TemplateHost.Value.Basic

/-!
# Modules of template code

A module is a list of statements that run in order. Most of them define a template, whose body is a
list of parts that are rendered one after the other.
-/
namespace TemplateHost

/-- What a template hands to a function: a constant, or an entry of its data or injected data. -/
inductive Argument where
  | literal (v : Value)
  | data (name : String)
  | injected (name : String)

inductive Part where
  | text (s : String)
  /-- A text with translations by locale. -/
  | message (default : String) (translations : List (String × String))
  | data (name : String)
  | injected (name : String)
  /-- An entry of the data that must be there; it is not escaped. -/
  | needed (name : String)
  | call (path : String)
  | delegateCall (id : String) (variant : Argument) (allowEmpty : Bool)
  | function (name : String) (arguments : List Argument)
  | raise (kind message : String)

structure Template where
  name : String
  body : List Part
  /-- The kind of content that the output is declared to be. -/
  kind : Option String
  /-- A fixed result in place of the output. -/
  returns : Option Value

/-- The packaged support code, in the order in which its parts run. -/
inductive SupportPart where
  | names
  | strings
  | content
  | collections
  | directions
  | interface
deriving DecidableEq

inductive Statement where
  /-- Declares a dotted name. Without a choice of its own, a declaration follows the module's. -/
  | provide (name : String) (declareTop : Option Bool)
  /-- Defines a template and binds a dotted name to it. -/
  | template (path : String) (t : Template)
  | delegate (id : String) (variant priority : Value) (t : Template)
  | assign (name : String) (v : Value)
  | newNamespace (name : String)
  | raise (kind message : String)
  | malformed
  | support (part : SupportPart)

structure Module where
  header : String
  statements : List Statement

/-- A source of the template compiler, by what the compiler makes of it: it stops with a status and
some output, writes nothing, or writes a module. -/
inductive TemplateSource where
  | stop (status : Int) (stderr : List UInt8)
  | skip
  | module (statements : List Statement)

namespace Part

/-- The part as it is written for a locale. -/
def localize (locale : String) : Part → Part
  | .message default translations => .text ((translations.lookup locale).getD default)
  | p => p

end Part

namespace Template

def localize (locale : String) (t : Template) : Template :=
  { t with body := t.body.map (Part.localize locale) }

end Template

namespace Statement

def localize (locale : String) : Statement → Statement
  | .template path t => .template path (t.localize locale)
  | .delegate id variant priority t => .delegate id variant priority (t.localize locale)
  | s => s

/-- Whether declarations without a choice of their own may declare top-level names. -/
def settle (declareTop : Bool) : Statement → Statement
  | .provide name none => .provide name (some declareTop)
  | s => s

def isMalformed : Statement → Bool
  | .malformed => true
  | _ => false

end Statement

end TemplateHost
