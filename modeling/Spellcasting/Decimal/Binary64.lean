import Spellcasting.Decimal.Power
import Spellcasting.Double

/-! # The parts of a double

A double is taken apart into sign, significand and exponent, so that its digits can be worked out in
whole numbers.
-/

namespace Spellcasting.Decimal

/-- What a double stands for; a `finite` one is `significand * 2 ^ exponent` under its sign. -/
inductive Binary64 where
  | nan
  | infinite (negative : Bool)
  | finite (negative : Bool) (significand : Nat) (exponent : Int)

/-- The least significand of a double that is not held at the least exponent. -/
def Binary64.leastNormal : Nat := pow2 52

/-- Reads the sign bit, the eleven exponent bits and the fifty-two fraction bits. -/
def Binary64.ofDouble (x : Double) : Binary64 :=
  let biased := ((x.bits >>> 52) &&& 0x7ff).toNat
  let fraction := (x.bits &&& 0xfffffffffffff).toNat
  if biased = 0x7ff then
    if fraction = 0 then .infinite x.isNegative else .nan
  else if biased = 0 then .finite x.isNegative fraction (-1074)
  else .finite x.isNegative (fraction + leastNormal) (biased - 1075)

end Spellcasting.Decimal
