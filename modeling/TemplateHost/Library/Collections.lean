import TemplateHost.Library.Strings
import TemplateHost.Value.Entries

/-!
# List and map functions for templates

A false value stands for an empty collection.
-/
namespace TemplateHost.Library

/-- The elements that a value yields one after the other: the items of a list, the characters of a
text, the keys of a map. -/
def elements? : Value → Option (List Value)
  | .list items => some items
  | .str s => some (s.toList.map fun c => .str (String.singleton c))
  | .map entries => some (entries.map (·.1))
  | _ => none

/-- Reads elements as key and value pairs into a map; `index` counts them. -/
def insertPairs (index : Nat) (entries : Entries) : List Value → Except Fault Entries
  | [] => .ok entries
  | x :: r =>
    match elements? x with
    | none => .error (.mismatch ("cannot convert dictionary update sequence element #"
        ++ toString index ++ " to a sequence"))
    | some [k, v] =>
      if k.isKey then insertPairs (index + 1) (entries.set k v) r
      else .error (.mismatch "unhashable type")
    | some items => .error (.notAPair index items.length)

/-- Adds the entries of a map, or of a list of pairs, to a map. -/
def insertAll (d : Describer) (entries : Entries) (v : Value) : Except Fault Entries :=
  if !v.isTrue then .ok entries
  else match v with
    | .map added => .ok (added.foldl (fun m e => m.set e.1 e.2) entries)
    | _ => match elements? v with
      | some items => insertPairs 0 entries items
      | none => .error (.mismatch ("'" ++ v.typeName d.typeName ++ "' object is not iterable"))

def augmentMap (d : Describer) (base additions : Value) : Except Fault Value := do
  let entries ← insertAll d [] base
  return .map (← insertAll d entries additions)

def mapKeys (d : Describer) (mapping : Value) : Except Fault Value :=
  if !mapping.isTrue then .ok (.list [])
  else match elements? mapping with
    | some items => .ok (.list items)
    | none => .error (.mismatch ("'" ++ mapping.typeName d.typeName ++ "' object is not iterable"))

def checkNotNull : Value → Except Fault Value
  | .null => .error .unexpectedNull
  | v => .ok v

def listContains (d : Describer) (values item : Value) : Except Fault Value :=
  if !values.isTrue then .ok (.bool false)
  else match values with
    | .list items => .ok (.bool (items.any fun x => x.same item))
    | .map entries =>
      if item.isKey then .ok (.bool (Entries.get? item entries).isSome)
      else .error (.mismatch "unhashable type")
    | .str s => match item with
      | .str t => .ok (.bool (Text.indexOf? t.toList s.toList).isSome)
      | _ => .error (.mismatch "'in <string>' requires string as left operand")
    | v => .error (.mismatch
        ("argument of type '" ++ v.typeName d.typeName ++ "' is not iterable"))

end TemplateHost.Library
