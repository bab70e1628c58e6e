import TemplateHost.Number.Binary64

/-!
# Integers and floating point numbers together

A number is an integer of any size or a floating point number. Comparisons between the two kinds
are exact.
-/
namespace TemplateHost.Number

inductive Numeric where
  | int (n : Int)
  | float (x : Binary64)
deriving DecidableEq

namespace Numeric

def compare? : Numeric → Numeric → Option Ordering
  | .int m, .int n => some (compare m n)
  | .float x, .float y => x.compare? y
  | .float x, .int n => x.compareInt? n
  | .int m, .float y => (y.compareInt? m).map Ordering.swap

def lt (x y : Numeric) : Bool := x.compare? y = some .lt

def le (x y : Numeric) : Bool := x.compare? y = some .lt || x.compare? y = some .eq

def eq (x y : Numeric) : Bool := x.compare? y = some .eq

def isZero : Numeric → Bool
  | .int n => n = 0
  | .float x => x.isZero

end Numeric

end TemplateHost.Number
