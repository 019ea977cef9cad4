import Spellcasting.Double

/-! # Whole numbers near a double -/

namespace Spellcasting.Decimal

/-- The whole number nearest to `x`, a half going away from zero. The sign of `x` is kept, and a
double too large to have a fraction is its own answer. -/
def nearest (x : Double) : Double :=
  let size := x.abs
  if size < 4503599627370496.0 then
    let whole := Double.ofWord size.toWord
    let rounded := if size - whole >= 0.5 then whole + 1.0 else whole
    if x.isNegative then -rounded else rounded
  else x

/-- The whole number that a double without fraction stands for; exact below `2 ^ 64` in size. -/
def toInt (x : Double) : Int :=
  let size : Int := x.abs.toWord.toNat
  if x < 0 then -size else size

end Spellcasting.Decimal
