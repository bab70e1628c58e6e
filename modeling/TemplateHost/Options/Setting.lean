/-!
# Settings

The values of options. A list that is stored becomes a tuple; every other value is stored as it is.
-/
namespace TemplateHost

inductive Setting where
  | null
  | flag (b : Bool)
  | number (n : Int)
  | text (s : String)
  | list (items : List Setting)
  | tuple (items : List Setting)
  /-- A value of any other kind, of which only the truth is ever asked. -/
  | other (truth : Bool) (literal : String)
deriving Inhabited

namespace Setting

/-- Null, zero and everything empty are false; all else is true. -/
def isTrue : Setting → Bool
  | .null => false
  | .flag b => b
  | .number n => n ≠ 0
  | .text s => s ≠ ""
  | .list items | .tuple items => !items.isEmpty
  | .other truth _ => truth

/-- The form in which a setting is stored. -/
def frozen : Setting → Setting
  | .list items => .tuple items
  | s => s

def text? : Setting → Option String
  | .text s => some s
  | _ => none

/-- The texts in a list or a tuple; a lone text counts as the sequence of its characters. -/
def texts : Setting → List String
  | .list items | .tuple items => items.filterMap text?
  | .text s => s.toList.map String.singleton
  | .null | .flag _ | .number _ | .other .. => []

def isList : Setting → Bool
  | .list _ => true
  | _ => false

theorem frozen_isList (s : Setting) : s.frozen.isList = false := by cases s <;> rfl

theorem frozen_frozen (s : Setting) : s.frozen.frozen = s.frozen := by cases s <;> rfl

end Setting

end TemplateHost
