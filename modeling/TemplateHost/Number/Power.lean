import TemplateHost.Number.Binary64

/-!
# Powers of ten

Whole exponents give the nearest number. Other exponents go through the machine's own power
function.
-/
namespace TemplateHost.Number.Binary64

def ofBits (b : UInt64) : Binary64 :=
  let negative := b >>> 63 = 1
  let field := ((b >>> 52) &&& 0x7FF).toNat
  let fraction := (b &&& 0xFFFFFFFFFFFFF).toNat
  if field = 0x7FF then if fraction = 0 then .infinite negative else .nan
  else if field = 0 then .finite negative fraction (-1074)
  else .finite negative (Nat.pow 2 52 + fraction) ((field : Int) - 1075)

def signBit (negative : Bool) : UInt64 := if negative then 0x8000000000000000 else 0

def toBits : Binary64 → UInt64
  | .nan => 0x7FF8000000000000
  | .infinite negative => signBit negative ||| 0x7FF0000000000000
  | .finite negative m e =>
    let magnitude := if m < Nat.pow 2 52 then m else (e + 1074).toNat * Nat.pow 2 52 + m
    signBit negative ||| UInt64.ofNat magnitude

def toNat? (x : Binary64) : Option Nat :=
  match x.quotient? with
  | some q => if q.num % q.den = 0 ∧ (!q.negative ∨ q.num = 0) then some (q.num / q.den) else none
  | none => none

def tenTo (x : Binary64) : Binary64 :=
  match x.toNat? with
  | some n => if 309 ≤ n then .infinite false else ofInt (Nat.pow 10 n)
  | none => ofBits ((10 : Float).pow (Float.ofBits x.toBits)).toBits

end TemplateHost.Number.Binary64
