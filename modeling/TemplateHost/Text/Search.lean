/-!
# Searching and splitting

Positions count code points.
-/
namespace TemplateHost.Text

def indexOf? (needle : List Char) : List Char → Option Nat
  | [] => if needle.isEmpty then some 0 else none
  | c :: r => if needle.isPrefixOf (c :: r) then some 0 else (indexOf? needle r).map (· + 1)

/-- The pieces between the occurrences of a separator character; there is always one. -/
def splitAt (sep : Char) : List Char → List (List Char)
  | [] => [[]]
  | c :: r =>
    if c = sep then [] :: splitAt sep r
    else match splitAt sep r with
      | [] => [[c]]
      | p :: ps => (c :: p) :: ps

/-- The pieces put together again, with the separator between them. -/
def joinWith (sep : Char) : List (List Char) → List Char
  | [] => []
  | [p] => p
  | p :: q :: ps => p ++ sep :: joinWith sep (q :: ps)

theorem splitAt_ne_nil (sep : Char) (s : List Char) : splitAt sep s ≠ [] := by
  fun_induction splitAt sep s <;> simp_all

theorem joinWith_splitAt (sep : Char) (s : List Char) : joinWith sep (splitAt sep s) = s := by
  induction s with
  | nil => rfl
  | cons c r ih =>
    rw [splitAt]
    cases hp : splitAt sep r with
    | nil => exact absurd hp (splitAt_ne_nil sep r)
    | cons p ps =>
      rw [hp] at ih
      split
      · next h => simp [joinWith, ih, h]
      · cases ps <;> simp_all [joinWith]

/-- Every occurrence of a needle that is not empty replaced, from left to right; the next `skip`
characters belong to an occurrence already replaced. -/
def replaceFrom (needle replacement : List Char) : Nat → List Char → List Char
  | _, [] => []
  | skip + 1, _ :: r => replaceFrom needle replacement skip r
  | 0, c :: r =>
    if needle.isPrefixOf (c :: r) then
      replacement ++ replaceFrom needle replacement (needle.length - 1) r
    else c :: replaceFrom needle replacement 0 r

def replaceAll (s needle replacement : String) : String :=
  String.ofList (replaceFrom needle.toList replacement.toList 0 s.toList)

def dotted (name : String) : List String := (splitAt '.' name.toList).map String.ofList

def join (sep : String) (parts : List String) : String := sep.intercalate parts

end TemplateHost.Text
