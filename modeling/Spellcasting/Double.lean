/-! # Doubles

A double is kept as its bits and computed with as a floating-point number. The bits tell apart more
than the number does: the two zeros, and all the patterns that are no number. Which of these
patterns a computation gives that comes to no number is left open by the arithmetic; here it is
always `nan`.
-/

namespace Spellcasting

/-- A double by its bits. -/
@[ext]
structure Double where
  bits : UInt64
  deriving DecidableEq

namespace Double

/-- The number that the bits stand for. -/
def toFloat (d : Double) : Float := .ofBits d.bits

/-- The bits of a number. -/
def ofFloat (x : Float) : Double := ⟨x.toBits⟩

def ofNat (n : Nat) : Double := .ofFloat (.ofNat n)

instance (n : Nat) : OfNat Double n := ⟨.ofNat n⟩
instance : OfScientific Double := ⟨fun digits negative exponent =>
  .ofFloat (.ofScientific digits negative exponent)⟩

def infinity : Double := ⟨0x7ff0000000000000⟩

/-- The pattern written for what is no number. -/
def nan : Double := ⟨0x7ff8000000000000⟩

/-- The bit of the sign. -/
def signBit : UInt64 := 0x8000000000000000

/-- Whether the sign is minus, as it can be of a zero and of what is no number, too. -/
def isNegative (d : Double) : Bool := d.bits &&& signBit != 0

def isFinite (d : Double) : Bool := d.toFloat.isFinite

/-- Turns the sign and nothing else. -/
instance : Neg Double := ⟨fun d => ⟨d.bits ^^^ signBit⟩⟩

/-- Clears the sign and nothing else. -/
def abs (d : Double) : Double := ⟨d.bits &&& ~~~signBit⟩

instance : Add Double := ⟨fun a b => .ofFloat (a.toFloat + b.toFloat)⟩
instance : Sub Double := ⟨fun a b => .ofFloat (a.toFloat - b.toFloat)⟩
instance : Mul Double := ⟨fun a b => .ofFloat (a.toFloat * b.toFloat)⟩
instance : Div Double := ⟨fun a b => .ofFloat (a.toFloat / b.toFloat)⟩

def sqrt (d : Double) : Double := .ofFloat d.toFloat.sqrt

instance : LT Double := ⟨fun a b => a.toFloat < b.toFloat⟩
instance : LE Double := ⟨fun a b => a.toFloat ≤ b.toFloat⟩

instance (a b : Double) : Decidable (a < b) := inferInstanceAs (Decidable (a.toFloat < b.toFloat))
instance (a b : Double) : Decidable (a ≤ b) := inferInstanceAs (Decidable (a.toFloat ≤ b.toFloat))

/-- Equality as numbers: the two zeros are the same, and what is no number is not even the same as
itself. -/
def same (a b : Double) : Bool := a.toFloat == b.toFloat

/-- The whole part, held within the bounds of a word. -/
def toWord (d : Double) : UInt64 := d.toFloat.toUInt64

def ofWord (n : UInt64) : Double := .ofFloat n.toFloat

end Double

end Spellcasting
