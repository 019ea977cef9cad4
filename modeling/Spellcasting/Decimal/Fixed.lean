import Spellcasting.Decimal.Binary64

/-! # Decimals with a fixed number of places

The exact value of a double is rounded to so many places, a half going to the even neighbour. The
sign of the double is kept, also where all digits are zero.
-/

namespace Spellcasting.Decimal

/-- The whole number nearest to `numerator / denominator`; a half goes to the even neighbour. -/
def roundHalfEven (numerator denominator : Nat) : Nat :=
  let quotient := numerator / denominator
  let rest := 2 * (numerator % denominator)
  if rest < denominator then quotient
  else if rest = denominator then quotient + quotient % 2
  else quotient + 1

/-- `units` of the last of `places` decimal places, written with a point. -/
def placed (places units : Nat) : String :=
  let fraction := String.ofList ((Nat.toDigits 10 (units % pow10 places)).leftpad places '0')
  Nat.repr (units / pow10 places) ++ "." ++ fraction

/-- A double with `places` decimals. -/
def fixed (places : Nat) (x : Double) : String :=
  match Binary64.ofDouble x with
  | .nan => "NaN"
  | .infinite negative => if negative then "-inf" else "inf"
  | .finite negative significand exponent =>
    let units :=
      roundHalfEven (significand * pow10 places * pow2 exponent.toNat) (pow2 (-exponent).toNat)
    (if negative then "-" else "") ++ placed places units

end Spellcasting.Decimal
