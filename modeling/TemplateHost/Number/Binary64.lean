import TemplateHost.Number.Rounding

/-!
# Binary floating point numbers

Numbers with 53 significant bits and exponents from -1074 to 971. Every operation is the exact
result rounded once to the nearest such number, ties to the even significand.
-/
namespace TemplateHost.Number

/-- A finite number is its significand times a power of two. The significand is below 2^53, and at
least 2^52 unless the exponent is the least one. -/
inductive Binary64 where
  | finite (negative : Bool) (significand : Nat) (exponent : Int)
  | infinite (negative : Bool)
  | nan
deriving DecidableEq

namespace Binary64

def zero (negative : Bool) : Binary64 := .finite negative 0 (-1074)

/-- The least exponent with which the quotient has at most 53 bits, within the range allowed. -/
def exponentFor (num den : Nat) : Int :=
  let e : Int := (num.log2 : Int) - den.log2 - 53
  let wide := (num * Nat.pow 2 (-e).toNat) / (den * Nat.pow 2 e.toNat)
  max (if Nat.pow 2 53 ≤ wide then e + 1 else e) (-1074)

def nearest (negative : Bool) (num den : Nat) : Binary64 :=
  if num = 0 then zero negative
  else
    let e := exponentFor num den
    let m := roundDiv (num * Nat.pow 2 (-e).toNat) (den * Nat.pow 2 e.toNat)
    let (m, e) := if m = Nat.pow 2 53 then (Nat.pow 2 52, e + 1) else (m, e)
    if 971 < e then .infinite negative else .finite negative m e

def isFinite : Binary64 → Bool
  | .finite .. => true
  | _ => false

def isNegative : Binary64 → Bool
  | .finite s _ _ | .infinite s => s
  | .nan => false

def isZero : Binary64 → Bool
  | .finite _ m _ => m = 0
  | _ => false

/-- A finite number as a quotient of natural numbers and a sign. -/
structure Quotient where
  negative : Bool
  num : Nat
  den : Nat

def quotient? : Binary64 → Option Quotient
  | .finite s m e => some ⟨s, m * Nat.pow 2 e.toNat, Nat.pow 2 (-e).toNat⟩
  | _ => none

def Quotient.signed (q : Quotient) : Int := if q.negative then -(q.num : Int) else q.num

/-- The number nearest to a quotient with a signed numerator; zero is positive. -/
def ofQuotient (num : Int) (den : Nat) : Binary64 := nearest (decide (num < 0)) num.natAbs den

def ofInt (n : Int) : Binary64 := ofQuotient n 1

/-- The number nearest to `digits * 10 ^ exponent`. -/
def ofDecimal (negative : Bool) (digits : Nat) (exponent : Int) : Binary64 :=
  nearest negative (digits * Nat.pow 10 exponent.toNat) (Nat.pow 10 (-exponent).toNat)

def neg : Binary64 → Binary64
  | .finite s m e => .finite (!s) m e
  | .infinite s => .infinite (!s)
  | .nan => .nan

def add : Binary64 → Binary64 → Binary64
  | .finite s m e, .finite t n f =>
    let low := min e f
    let total : Int := (Quotient.signed ⟨s, m * Nat.pow 2 (e - low).toNat, 1⟩)
      + Quotient.signed ⟨t, n * Nat.pow 2 (f - low).toNat, 1⟩
    if total = 0 then zero (s && t)
    else nearest (decide (total < 0)) (total.natAbs * Nat.pow 2 low.toNat) (Nat.pow 2 (-low).toNat)
  | .nan, _ | _, .nan => .nan
  | .infinite s, .infinite t => if s = t then .infinite s else .nan
  | .infinite s, _ | _, .infinite s => .infinite s

def sub (x y : Binary64) : Binary64 := x.add y.neg

def mul : Binary64 → Binary64 → Binary64
  | .finite s m e, .finite t n f =>
    nearest (s != t) (m * n * Nat.pow 2 (e + f).toNat) (Nat.pow 2 (-(e + f)).toNat)
  | .nan, _ | _, .nan => .nan
  | .infinite s, y => if y.isZero then .nan else .infinite (s != y.isNegative)
  | x, .infinite t => if x.isZero then .nan else .infinite (x.isNegative != t)

/-- Division; the quotient by zero is infinite or undefined. -/
def div : Binary64 → Binary64 → Binary64
  | .finite s m e, .finite t n f =>
    if n = 0 then if m = 0 then .nan else .infinite (s != t)
    else nearest (s != t) (m * Nat.pow 2 (e - f).toNat) (n * Nat.pow 2 (f - e).toNat)
  | .nan, _ | _, .nan => .nan
  | .infinite _, .infinite _ => .nan
  | .infinite s, y => .infinite (s != y.isNegative)
  | x, .infinite t => zero (x.isNegative != t)

/-- How two numbers compare; undefined numbers compare with nothing, and the two zeros are equal. -/
def compare? : Binary64 → Binary64 → Option Ordering
  | .finite s m e, .finite t n f =>
    let low := min e f
    some (compare (Quotient.signed ⟨s, m * Nat.pow 2 (e - low).toNat, 1⟩)
      (Quotient.signed ⟨t, n * Nat.pow 2 (f - low).toNat, 1⟩))
  | .nan, _ | _, .nan => none
  | .infinite s, .infinite t => some (compare (!s) (!t))
  | .infinite s, .finite .. => some (if s then .lt else .gt)
  | .finite .., .infinite t => some (if t then .gt else .lt)

def compareInt? : Binary64 → Int → Option Ordering
  | .finite s m e, n =>
    some (compare (Quotient.signed ⟨s, m * Nat.pow 2 e.toNat, 1⟩) (n * Nat.pow 2 (-e).toNat))
  | .infinite s, _ => some (if s then .lt else .gt)
  | .nan, _ => none

def lt (x y : Binary64) : Bool := x.compare? y = some .lt

instance : Add Binary64 := ⟨add⟩

instance : Sub Binary64 := ⟨sub⟩

instance : LT Binary64 := ⟨fun x y => x.lt y = true⟩

instance : DecidableLT Binary64 := fun x y => inferInstanceAs (Decidable (x.lt y = true))

/-- The nearest integer of a finite number, ties to the even one. -/
def round? (x : Binary64) : Option Int :=
  x.quotient?.map fun q => Quotient.signed ⟨q.negative, roundDiv q.num q.den, 1⟩

def truncate? (x : Binary64) : Option Int :=
  x.quotient?.map fun q => Quotient.signed ⟨q.negative, q.num / q.den, 1⟩

/-- The number nearest to the value rounded to so many decimal places, a tie of the exact value
going to the even digit. Numbers already have no more than 323 places that matter. -/
def roundPlaces (x : Binary64) (places : Nat) : Binary64 :=
  if 323 < places then x
  else match x.quotient? with
    | some q => nearest q.negative (roundDiv (q.num * Nat.pow 10 places) q.den) (Nat.pow 10 places)
    | none => x

end Binary64

end TemplateHost.Number
