import TemplateHost.Value.Basic

/-!
# Digests of values

Equal keys have equal digests. Numbers are reduced modulo 2^61 - 1 so that integers and floating
point numbers agree, -1 shares its digest with -2, and the empty text with zero.
-/
namespace TemplateHost

inductive Digest where
  | null
  | number (n : Int)
  | text (s : String)
  | safe (context : Safety) (content : Digest)
  | object (id : ObjectId)
deriving DecidableEq

namespace Digest
open Number

def modulus : Nat := Nat.pow 2 61 - 1

def ofResidue (negative : Bool) (residue : Nat) : Digest :=
  let n : Int := if negative then -(residue : Int) else residue
  .number (if n = -1 then -2 else n)

def ofInt (n : Int) : Digest := ofResidue (decide (n < 0)) (n.natAbs % modulus)

/-- Undefined numbers have no digest that they share with anything. -/
def ofBinary64? : Binary64 → Option Digest
  | .finite s m e => some (ofResidue s (m * Nat.pow 2 (e % 61).toNat % modulus))
  | .infinite s => some (.number (if s then -314159 else 314159))
  | .nan => none

end Digest

namespace Value

/-- The outer level is missing for values that cannot be keys, the inner for those that share their
digest with no other. -/
def digest? : Value → Option (Option Digest)
  | .null => some (some .null)
  | .bool b => some (some (.ofInt (if b then 1 else 0)))
  | .int n => some (some (.ofInt n))
  | .float x => some (Digest.ofBinary64? x)
  | .str s => some (some (if s.isEmpty then .number 0 else .text s))
  | .list _ | .map _ => none
  | .safe context content => (digest? content).map fun d => d.map (.safe context)
  | .object id => some (some (.object id))

end Value

end TemplateHost
