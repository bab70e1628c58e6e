import TemplateHost.Value.Equality

/-!
# Entries of maps

A map keeps its keys in order of arrival. A key that equals a present one takes over neither its
place nor its form, only its value. Lists and maps cannot be keys.
-/
namespace TemplateHost

abbrev Entries := List (Value × Value)

namespace Entries

def get? (k : Value) : Entries → Option Value
  | [] => none
  | (j, v) :: r => if j.same k then some v else get? k r

def set (k v : Value) : Entries → Entries
  | [] => [(k, v)]
  | (j, w) :: r => if j.same k then (j, v) :: r else (j, w) :: set k v r

def text? (entries : Entries) (name : String) : Option Value := entries.get? (.str name)

end Entries

namespace Value

def isKey : Value → Bool
  | .list _ | .map _ => false
  | .safe _ content => isKey content
  | _ => true

end Value

end TemplateHost
