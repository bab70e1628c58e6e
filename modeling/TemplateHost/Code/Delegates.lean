import TemplateHost.Value.Entries

/-!
# Delegate registries

A delegate is found by its id and a variant. For each pair only the function with the highest
priority counts, and two functions may not share it. Two maps under the same keys hold the
priorities and the functions.
-/
namespace TemplateHost.Delegates

def key (id variant : String) : Value := .str ("key_" ++ id ++ ":" ++ variant)

inductive Verdict where
  | accepted
  | ignored
  | tied
  | incomparable

/-- How a new priority stands against the one registered before. -/
def judge (current : Option Value) (priority : Value) : Verdict :=
  match current with
  | none | some .null => .accepted
  | some old =>
    match old.less? priority with
    | none => .incomparable
    | some true => .accepted
    | some false => if priority.same old then .tied else .ignored

def find? (functions : Entries) (id variant : String) : Option Value :=
  match Entries.get? (key id variant) functions with
  | some .null | none => none
  | some f => some f

/-- The function for a variant, or else the one for the default variant. -/
def select? (functions : Entries) (id variant : String) : Option Value :=
  match find? functions id variant with
  | some f => some f
  | none => if variant.isEmpty then none else find? functions id ""

end TemplateHost.Delegates
