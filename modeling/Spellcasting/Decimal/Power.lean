/-! # Powers of the two bases -/

namespace Spellcasting.Decimal

/-- Two to the power of `n`. -/
def pow2 (n : Nat) : Nat := Nat.pow 2 n

/-- Ten to the power of `n`. -/
def pow10 (n : Nat) : Nat := Nat.pow 10 n

end Spellcasting.Decimal
