import TemplateHost.Fault
import TemplateHost.Text.Newline
import TemplateHost.Text.Search
import TemplateHost.Text.Truncate
import TemplateHost.Text.WordBreak
import TemplateHost.Value.Display

/-!
# Text functions for templates

Arguments that are no texts are taken by their text.
-/
namespace TemplateHost.Library
open Number Text

def textOf (d : Describer) (v : Value) : Except Fault String :=
  match v.text? d.literal with
  | some s => .ok s
  | none => .error (.mismatch "__str__ returned non-string")

def charsOf (d : Describer) (v : Value) : Except Fault (List Char) :=
  (textOf d v).map String.toList

def ofChars (s : List Char) : Value := .str (String.ofList s)

def numberOf (d : Describer) (v : Value) : Except Fault Numeric :=
  match v.number? with
  | some n => .ok n
  | none => .error (.mismatch ("unsupported operand type '" ++ v.typeName d.typeName ++ "'"))

def positionOf : Value → Except Fault (Option Int)
  | .null => .ok none
  | v => match v.index? with
    | some i => .ok (some i)
    | none => .error (.mismatch
        "slice indices must be integers or None or have an __index__ method")

def strContains (d : Describer) (value needle : Value) : Except Fault Value := do
  let n ← charsOf d needle
  let s ← charsOf d value
  return .bool (indexOf? n s).isSome

def strIndexOf (d : Describer) (value needle : Value) : Except Fault Value := do
  let s ← charsOf d value
  let n ← charsOf d needle
  return .int (match indexOf? n s with
    | some i => i
    | none => -1)

def strSub (d : Describer) (value start stop : Value) : Except Fault Value := do
  let s ← charsOf d value
  let lo ← positionOf start
  let hi ← positionOf stop
  return ofChars (slice lo hi s)

def collapseWhitespace (d : Describer) (value : Value) : Except Fault Value := do
  return ofChars (trim (squeeze (← charsOf d value)))

def lineBreakTag : List Char := ['<', 'b', 'r', '>']

def changeNewlineToBr (d : Describer) (value : Value) : Except Fault Value := do
  return ofChars (replaceLineEnds lineBreakTag (← charsOf d value))

/-- The limit may be any number as long as the text is within it; a cut needs an integer. -/
def truncateText (d : Describer) (value limit ellipsis : Value) : Except Fault Value := do
  let s ← charsOf d value
  let n ← numberOf d limit
  if (Numeric.int s.length).le n then return ofChars s
  match limit.index? with
  | some i => return ofChars (truncate i ellipsis.isTrue s)
  | none => throw (.mismatch "slice indices must be integers or None or have an __index__ method")

/-- The limit matters only if the text has a word. -/
def insertWordBreaks (d : Describer) (value limit : Value) : Except Fault Value := do
  let s ← charsOf d value
  if !hasWord s then return ofChars s
  let n ← numberOf d limit
  return ofChars (breakWords (fun run => n.lt (.int run)) s)

end TemplateHost.Library
