/-! # Characters by code point -/

namespace Spellcasting.Scalar

/-- The character of a code point; surrogates and numbers past the last code point have none. -/
def ofNat? (n : Nat) : Option Char :=
  if h : n.isValidChar then some (Char.ofNatAux n h) else none

end Spellcasting.Scalar
