import Spellcasting.Double

/-! # Doubles from decimal digits

A decimal number is read as the double nearest to it. Exponents far outside the range of doubles are
decided from the number of digits alone.
-/

namespace Spellcasting.Decimal

/-- The number of a row of decimal digits. -/
def ofDigits (digits : List Char) : Nat :=
  digits.foldl (fun n c => 10 * n + (c.toNat - '0'.toNat)) 0

/-- A decimal exponent past which every number is infinite, and under which every number is zero. -/
def exponentLimit : Int := 400

/-- The double nearest to `digits * 10 ^ exponent`, under the sign. -/
def toDouble (negative : Bool) (digits : Nat) (exponent : Int) : Double :=
  let magnitude : Int := (Nat.toDigits 10 digits).length + exponent
  let size : Double :=
    if digits = 0 ∨ magnitude < -exponentLimit then 0
    else if exponentLimit < magnitude then .infinity
    else .ofFloat (.ofScientific digits (decide (exponent < 0)) exponent.natAbs)
  if negative then -size else size

/-- The double nearest to a whole number. -/
def ofInt (n : Int) : Double := toDouble (decide (n < 0)) n.natAbs 0

end Spellcasting.Decimal
