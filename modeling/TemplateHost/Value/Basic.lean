import TemplateHost.Number.Numeric

/-!
# Values

The data that templates work on. Text that is known to be safe in some context carries that context
with it. Functions, types and namespaces have an identity of their own; a value only refers to them.
-/
namespace TemplateHost
open Number

/-- The context in which a content is safe. -/
inductive Safety where
  | unspecified
  | html
  | attributes
  | uri
  | text
deriving DecidableEq, Inhabited

namespace Safety

/-- The contexts that have a kind of content. -/
def specific : List Safety := [.html, .attributes, .uri, .text]

def typeName : Safety → String
  | .unspecified => "SanitizedContent"
  | .html => "SanitizedHtml"
  | .attributes => "SanitizedHtmlAttribute"
  | .uri => "SanitizedUri"
  | .text => "SanitizedText"

def kind? : Safety → Option String
  | .unspecified => none
  | .html => some "html"
  | .attributes => some "attributes"
  | .uri => some "uri"
  | .text => some "text"

/-- The context of a kind; kinds without one of their own count as HTML. -/
def ofKind (kind : String) : Safety :=
  if kind = "attributes" then .attributes
  else if kind = "uri" then .uri
  else if kind = "text" then .text
  else .html

end Safety

abbrev ObjectId := Nat

inductive Value where
  | null
  | bool (b : Bool)
  | int (n : Int)
  | float (x : Binary64)
  | str (s : String)
  | list (items : List Value)
  | map (entries : List (Value × Value))
  | safe (context : Safety) (content : Value)
  | object (id : ObjectId)
deriving Inhabited

namespace Value

/-- Truth values are the numbers 0 and 1. -/
def number? : Value → Option Numeric
  | .bool b => some (.int (if b then 1 else 0))
  | .int n => some (.int n)
  | .float x => some (.float x)
  | _ => none

/-- Values that can be used as a position or a count. -/
def index? : Value → Option Int
  | .bool b => some (if b then 1 else 0)
  | .int n => some n
  | _ => none

/-- Null, zero and everything empty are false; all else is true. -/
def isTrue : Value → Bool
  | .null => false
  | .bool b => b
  | .int n => n ≠ 0
  | .float x => !x.isZero
  | .str s => !s.isEmpty
  | .list items => !items.isEmpty
  | .map entries => !entries.isEmpty
  | .safe _ _ | .object _ => true

def isNull : Value → Bool
  | .null => true
  | _ => false

def typeName (objectType : ObjectId → String) : Value → String
  | .null => "NoneType"
  | .bool _ => "bool"
  | .int _ => "int"
  | .float _ => "float"
  | .str _ => "str"
  | .list _ => "list"
  | .map _ => "dict"
  | .safe context _ => context.typeName
  | .object id => objectType id

end Value

end TemplateHost
