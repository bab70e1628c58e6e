import TemplateHost.Library.Strings
import TemplateHost.Number.Power

/-!
# Rounding for templates

A positive number of digits keeps that many decimal places. Otherwise the value is divided by a
power of ten, the quotient rounded to the nearest integer, ties to even, and multiplied again. The
quotient of two integers is a floating point number, so large integers lose digits on the way.
-/
namespace TemplateHost.Library
open Number

def toBinary64 : Numeric → Except Fault Binary64
  | .float x => .ok x
  | .int n =>
    let x := Binary64.ofInt n
    if x.isFinite then .ok x else .error (.tooLarge "int too large to convert to float")

/-- True division; two integers are divided exactly before the one rounding. -/
def quotient : Numeric → Numeric → Except Fault Binary64
  | .int m, .int n =>
    let x := Binary64.ofQuotient (if n < 0 then -m else m) n.natAbs
    if x.isFinite then .ok x
    else .error (.tooLarge "integer division result too large for a float")
  | x, y => do return (← toBinary64 x).div (← toBinary64 y)

def wholePart (read : Binary64 → Option Int) (x : Binary64) : Except Fault Int :=
  match x with
  | .nan => .error .undefinedInteger
  | _ => match read x with
    | some n => .ok n
    | none => .error (.tooLarge "cannot convert float infinity to integer")

/-- The power of ten with the opposite exponent. -/
def scale : Numeric → Except Fault Numeric
  | .int n => .ok (.int (Nat.pow 10 (-n).toNat))
  | .float x =>
    let y := Binary64.tenTo x.neg
    if x.isFinite && !y.isFinite then .error (.tooLarge "Numerical result out of range")
    else .ok (.float y)

def roundToScale (value factor : Numeric) : Except Fault Int := do
  let whole ← wholePart Binary64.round? (← quotient value factor)
  match factor with
  | .int f => return whole * f
  | .float f => wholePart Binary64.truncate? ((← toBinary64 (.int whole)).mul f)

def roundNumber (d : Describer) (value digits : Value) : Except Fault Value := do
  let places ← numberOf d digits
  if places.le (.int 0) then
    let factor ← scale places
    return .int (← roundToScale (← numberOf d value) factor)
  let x ← numberOf d value
  match digits.index? with
  | none => throw (.mismatch "the number of places must be an integer")
  | some n => match x with
    | .int m => return .int m
    | .float y => return .float (y.roundPlaces n.toNat)

end TemplateHost.Library
