import TemplateHost.Bidi.Mark
import TemplateHost.Library.Strings
import TemplateHost.Value.Equality

/-!
# Direction functions for templates

The direction of the surroundings is a number: negative for right to left.
-/
namespace TemplateHost.Library
open Number Bidi

/-- The direction that a number stands for. -/
def surrounding (d : Describer) (globalDir : Value) : Except Fault Direction := do
  let n ← numberOf d globalDir
  return if n.lt (.int 0) then .rtl else .ltr

def bidiTextDir (d : Describer) (text : Value) : Except Fault Value := do
  return .int (match direction? (← charsOf d text) with
    | some dir => dir.sign
    | none => 0)

/-- The direction of a text that runs against its surroundings. -/
def against? (d : Describer) (globalDir text : Value) : Except Fault (Option Direction) := do
  match direction? (← charsOf d text) with
  | some dir => return if (Value.int dir.sign).same globalDir then none else some dir
  | none => return none

def bidiDirAttr (d : Describer) (globalDir text : Value) : Except Fault Value := do
  match ← against? d globalDir text with
  | some dir => return .str dir.attribute
  | none => return .str ""

def bidiMark (d : Describer) (globalDir : Value) : Except Fault Value := do
  return .str (String.singleton (← surrounding d globalDir).mark)

def bidiMarkAfter (d : Describer) (globalDir text : Value) : Except Fault Value := do
  match ← against? d globalDir text with
  | some _ => bidiMark d globalDir
  | none => return .str ""

def bidiStartEdge (d : Describer) (globalDir : Value) : Except Fault Value := do
  return .str (← surrounding d globalDir).startEdge

def bidiEndEdge (d : Describer) (globalDir : Value) : Except Fault Value := do
  return .str (← surrounding d globalDir).endEdge

end TemplateHost.Library
