import TemplateHost.Number.Binary64

/-!
# Shortest decimals

The text of a floating point number has the fewest significant digits that read back to the number,
and of several such decimals the nearest one. It is positional when the leading digit stands for a
power of ten from -4 to 15.
-/
namespace TemplateHost.Number

/-- `digits * 10 ^ exponent` -/
structure Decimal where
  digits : Nat
  exponent : Int

namespace Decimal

def readsAs (d : Decimal) (m : Nat) (e : Int) : Bool :=
  Binary64.ofDecimal false d.digits d.exponent = .finite false m e

/-- The two neighbours of `num / den` among the multiples of `10 ^ exponent`, nearer one first; of
equally near ones the even one comes first. -/
def neighbours (num den : Nat) (exponent : Int) : List Decimal :=
  let n := num * Nat.pow 10 (-exponent).toNat
  let d := den * Nat.pow 10 exponent.toNat
  let near := roundDiv n d
  let other := if near = n / d then near + 1 else n / d
  [⟨near, exponent⟩, ⟨other, exponent⟩]

/-- The number of digits before the decimal point; zero or less if the value is below a tenth. -/
def magnitude (num den : Nat) : Int :=
  if den ≤ num then (Nat.toDigits 10 (num / den)).length
  else
    let zeros := (Nat.toDigits 10 (den / num)).length
    -- `num / den` lies between 10 ^ (-zeros) and 10 ^ (1 - zeros), the upper end included
    if den ≤ num * Nat.pow 10 (zeros - 1) then 2 - (zeros : Int) else 1 - (zeros : Int)

def search (m : Nat) (e : Int) (num den : Nat) (top : Int) : Nat → Nat → Option Decimal
  | _, 0 => none
  | count, tries + 1 =>
    match (neighbours num den (top - count)).find? fun d => d.readsAs m e with
    | some d => some d
    | none => search m e num den top (count + 1) tries

/-- Trailing zeros move into the exponent. -/
def strip : Nat → Decimal → Decimal
  | 0, d => d
  | fuel + 1, d =>
    if d.digits ≠ 0 ∧ d.digits % 10 = 0 then strip fuel ⟨d.digits / 10, d.exponent + 1⟩ else d

/-- The shortest decimal of `m * 2 ^ e`. Seventeen digits always suffice; the exact value stands
in for a search that fails. -/
def shortest (m : Nat) (e : Int) : Decimal :=
  let num := m * Nat.pow 2 e.toNat
  let den := Nat.pow 2 (-e).toNat
  let found := (search m e num den (magnitude num den) 1 17).getD
    ⟨m * Nat.pow 2 e.toNat * Nat.pow 5 (-e).toNat, min e 0⟩
  strip 20 found

end Decimal

def zeros (n : Nat) : List Char := List.replicate n '0'

def layout (digits : List Char) (lead : Int) : List Char :=
  let count := digits.length
  if -4 ≤ lead ∧ lead < 16 then
    if lead < 0 then '0' :: '.' :: zeros (-lead - 1).toNat ++ digits
    else if (count : Int) ≤ lead + 1 then digits ++ zeros (lead + 1 - count).toNat ++ ['.', '0']
    else digits.take (lead + 1).toNat ++ '.' :: digits.drop (lead + 1).toNat
  else
    let mantissa := match digits with
      | [] | [_] => digits
      | d :: rest => d :: '.' :: rest
    let power := Nat.toDigits 10 lead.natAbs
    mantissa ++ 'e' :: (if lead < 0 then '-' else '+') :: zeros (2 - power.length) ++ power

def Binary64.text : Binary64 → String
  | .nan => "nan"
  | .infinite negative => if negative then "-inf" else "inf"
  | .finite negative m e =>
    let body :=
      if m = 0 then ['0', '.', '0']
      else
        let d := Decimal.shortest m e
        let digits := Nat.toDigits 10 d.digits
        layout digits (d.exponent + digits.length - 1)
    String.ofList (if negative then '-' :: body else body)

end TemplateHost.Number
