import TemplateHost.Number.Binary64

/-!
# Reading decimals

The texts of floating point numbers: an optional minus sign, then digits with an optional fraction
and an optional exponent, or one of the words for infinity and for the undefined number.
-/
namespace TemplateHost.Number

def digitsValue? (s : List Char) : Option Nat :=
  if s.isEmpty || !s.all Char.isDigit then none
  else some (s.foldl (fun n c => n * 10 + (c.toNat - 48)) 0)

def signed? (s : List Char) : Option Int :=
  match s with
  | '-' :: r => (digitsValue? r).map fun n => -(n : Int)
  | '+' :: r => (digitsValue? r).map Int.ofNat
  | _ => (digitsValue? s).map Int.ofNat

def unsigned? (negative : Bool) (s : List Char) : Option Binary64 := do
  let mantissa := s.takeWhile fun c => c ≠ 'e' ∧ c ≠ 'E'
  let exponent ← match s.drop mantissa.length with
    | [] => some 0
    | _ :: r => signed? r
  let whole := mantissa.takeWhile (· ≠ '.')
  let fraction := mantissa.drop (whole.length + 1)
  let digits ← digitsValue? (whole ++ fraction)
  return .ofDecimal negative digits (exponent - fraction.length)

def Binary64.ofText? (s : String) : Option Binary64 :=
  let (negative, rest) := match s.toList with
    | '-' :: r => (true, r)
    | r => (false, r)
  if rest = "inf".toList then some (.infinite negative)
  else if rest = "nan".toList then some .nan
  else unsigned? negative rest

end TemplateHost.Number
