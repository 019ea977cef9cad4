import Spellcasting.Operator.Arguments

/-! # Arithmetic on numbers and vectors

Where a number meets a vector it stands for the vector of that number in all places, except that it
scales the vector in products. Two vectors multiply to their dot product and divide to their cross
product.
-/

namespace Spellcasting.Arithmetic

open NumOrVec

/-- Both operands, each a number or a vector. -/
def operands (args : Arguments) : Except Mishap (NumOrVec × NumOrVec) := do
  let a ← args.get .numOrVec 0
  let b ← args.get .numOrVec 1
  return (a, b)

def sum : NumOrVec → NumOrVec → NumOrVec
  | num a, num b => num (a + b)
  | num n, vec v => vec (v + .splat n)
  | vec v, num n => vec (v + .splat n)
  | vec a, vec b => vec (a + b)

def difference : NumOrVec → NumOrVec → NumOrVec
  | num a, num b => num (a - b)
  | num n, vec v => vec (.splat n - v)
  | vec v, num n => vec (v - .splat n)
  | vec a, vec b => vec (a - b)

def product : NumOrVec → NumOrVec → NumOrVec
  | num a, num b => num (a * b)
  | num n, vec v => vec (v.scale n)
  | vec v, num n => vec (v.scale n)
  | vec a, vec b => num (a.dot b)

/-- The quotient, `none` where a divisor or one of its components is zero. A vector is divided by a
number by scaling it with the reciprocal. -/
def quotient? : NumOrVec → NumOrVec → Option NumOrVec
  | num a, num b => if b.same 0 then none else some (num (a / b))
  | vec v, num n => if n.same 0 then none else some (vec (v.scale (1 / n)))
  | num n, vec v =>
    if v.x.same 0 || v.y.same 0 || v.z.same 0 then none else some (vec ⟨n / v.x, n / v.y, n / v.z⟩)
  | vec a, vec b => some (vec (a.cross b))

def add (args : Arguments) : Except Mishap (List Iota) := do
  let (a, b) ← operands args
  return [(sum a b).toIota]

def sub (args : Arguments) : Except Mishap (List Iota) := do
  let (a, b) ← operands args
  return [(difference a b).toIota]

def mul (args : Arguments) : Except Mishap (List Iota) := do
  let (a, b) ← operands args
  return [(product a b).toIota]

def div (args : Arguments) : Except Mishap (List Iota) := do
  let (a, b) ← operands args
  match quotient? a b with
  | some q => return [q.toIota]
  | none => .error (.divideByZero a.toIota b.toIota)

end Spellcasting.Arithmetic
