import TemplateHost.Value.Basic

/-!
# Equality and order of values

Numbers of different kinds are equal when they have the same value, maps when they have equal
entries in any order. Undefined numbers equal nothing, not even themselves. Only numbers, texts and
lists are ordered.
-/
namespace TemplateHost.Value
open Number

def sameNumber (x y : Value) : Bool :=
  match x.number?, y.number? with
  | some a, some b => a.eq b
  | _, _ => false

mutual

def same : Value → Value → Bool
  | .null, y => y.isNull
  | .str s, .str t => s = t
  | .list xs, .list ys => sameItems xs ys
  | .map xs, .map ys => xs.length = ys.length && sameEntries xs ys
  | .safe s x, .safe t y => s = t && same x y
  | .object i, .object j => i = j
  | .bool b, y => sameNumber (.bool b) y
  | .int n, y => sameNumber (.int n) y
  | .float x, y => sameNumber (.float x) y
  | _, _ => false

def sameItems : List Value → List Value → Bool
  | [], [] => true
  | x :: xs, y :: ys => same x y && sameItems xs ys
  | _, _ => false

/-- Whether every entry of the first list has an equal one in the second. -/
def sameEntries : List (Value × Value) → List (Value × Value) → Bool
  | [], _ => true
  | (k, v) :: r, ys => ys.any (fun e => same k e.1 && same v e.2) && sameEntries r ys

end

mutual

/-- Whether `x` comes before `y`; there is no answer for values that are not ordered. -/
def less? : Value → Value → Option Bool
  | .str s, .str t => some (s < t)
  | .list xs, .list ys => lessItems? xs ys
  | .bool b, y => y.number?.map fun n => Numeric.lt (.int (if b then 1 else 0)) n
  | .int m, y => y.number?.map fun n => Numeric.lt (.int m) n
  | .float x, y => y.number?.map fun n => Numeric.lt (.float x) n
  | _, _ => none

/-- The first pair of items that differ decides, and of two lists without one the shorter. -/
def lessItems? : List Value → List Value → Option Bool
  | [], ys => some !ys.isEmpty
  | _ :: _, [] => some false
  | x :: xs, y :: ys => if same x y then lessItems? xs ys else less? x y

end

end TemplateHost.Value
