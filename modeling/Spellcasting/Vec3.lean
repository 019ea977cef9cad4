import Spellcasting.Decimal.Fixed

/-! # Vectors

Points and directions of the world. Arithmetic is that of doubles, component by component and in the
order written; `same` is the comparison of doubles as numbers, while `=` tells bit patterns apart.
-/

namespace Spellcasting

/-- A point or a direction. -/
structure Vec3 where
  x : Double
  y : Double
  z : Double
  deriving DecidableEq

namespace Vec3

/-- The origin. -/
def zero : Vec3 := ⟨0, 0, 0⟩

/-- The vector with one number in all three places. -/
def splat (n : Double) : Vec3 := ⟨n, n, n⟩

instance : Add Vec3 := ⟨fun a b => ⟨a.x + b.x, a.y + b.y, a.z + b.z⟩⟩
instance : Sub Vec3 := ⟨fun a b => ⟨a.x - b.x, a.y - b.y, a.z - b.z⟩⟩

/-- Multiplies each component. -/
def scale (a : Vec3) (factor : Double) : Vec3 := ⟨a.x * factor, a.y * factor, a.z * factor⟩

instance : Neg Vec3 := ⟨fun a => a.scale (-1)⟩

def dot (a b : Vec3) : Double := a.x * b.x + a.y * b.y + a.z * b.z

def cross (a b : Vec3) : Vec3 :=
  ⟨a.y * b.z - a.z * b.y, a.z * b.x - a.x * b.z, a.x * b.y - a.y * b.x⟩

def lengthSquared (a : Vec3) : Double := a.x * a.x + a.y * a.y + a.z * a.z

def length (a : Vec3) : Double := a.lengthSquared.sqrt

/-- The Euclidean distance between two points. -/
def distance (a b : Vec3) : Double := (a - b).length

/-- Equality of the components as numbers: the two zeros are the same, and not-a-number is not even
the same as itself. -/
def same (a b : Vec3) : Bool := a.x.same b.x && a.y.same b.y && a.z.same b.z

/-- The components with two decimals. -/
def text (a : Vec3) : String :=
  "(" ++ Decimal.fixed 2 a.x ++ ", " ++ Decimal.fixed 2 a.y ++ ", " ++ Decimal.fixed 2 a.z ++ ")"

end Vec3

end Spellcasting
