import TemplateHost.Number.Shortest
import TemplateHost.Text.Quoted
import TemplateHost.Text.Search
import TemplateHost.Value.Basic

/-!
# Values as text

The literal form of a value shows its structure; texts in it are quoted. As a whole, a text is
displayed without quotation marks and a safe content as the text it holds.
-/
namespace TemplateHost.Value
open Text

def boolLiteral (b : Bool) : String := if b then "True" else "False"

mutual

/-- The literal form; objects are described by the given function. -/
def literal (describe : ObjectId → String) : Value → String
  | .null => "None"
  | .bool b => boolLiteral b
  | .int n => toString n
  | .float x => x.text
  | .str s => quoted s
  | .list items => "[" ++ join ", " (literalItems describe items) ++ "]"
  | .map entries => "\x7b" ++ join ", " (literalEntries describe entries) ++ "\x7d"
  | .safe context content => context.typeName ++ "(" ++ literal describe content ++ ")"
  | .object id => describe id

def literalItems (describe : ObjectId → String) : List Value → List String
  | [] => []
  | x :: r => literal describe x :: literalItems describe r

def literalEntries (describe : ObjectId → String) : List (Value × Value) → List String
  | [] => []
  | (k, v) :: r =>
    (literal describe k ++ ": " ++ literal describe v) :: literalEntries describe r

end

/-- The text of a value; a safe content that holds no text has none. -/
def text? (describe : ObjectId → String) : Value → Option String
  | .str s => some s
  | .safe _ (.str s) => some s
  | .safe _ _ => none
  | v => some (literal describe v)

end TemplateHost.Value
