import Spellcasting.Decimal.Nearest
import Spellcasting.Mishap

/-! # Reading arguments

An operator reads each of its arguments as some type. A reading names the type and takes its value
out of an iota; an argument that cannot be so read is a mishap that names the type and the place of
the argument, counted from the top of the stack.
-/

namespace Spellcasting

/-- A number or a vector, for operators that take either. -/
inductive NumOrVec where
  | num (value : Double)
  | vec (value : Vec3)
  deriving DecidableEq

/-- The iota of a number or a vector. -/
def NumOrVec.toIota : NumOrVec → Iota
  | num n => .double n
  | vec v => .vec3 v

/-- A way to read an iota as a value, and the name of what is wanted. -/
structure Reading (α : Type) where
  wanted : String
  read? : Iota → Option α

namespace Reading

def double : Reading Double := ⟨"double", Iota.asDouble?⟩

def positiveDouble : Reading Double where
  wanted := "double.positive"
  read?
    | .double d => if d >= 0 then some d else none
    | _ => none

/-- The size from which whole numbers no longer fit 63 bits. -/
def integerLimit : Double := 9223372036854775808.0

/-- A double within tolerance of a whole number. -/
def integer : Reading Int where
  wanted := "int"
  read?
    | .double d =>
      let whole := Decimal.nearest d
      if (d - whole).abs <= Iota.tolerance && whole.abs < integerLimit
      then some (Decimal.toInt whole) else none
    | _ => none

def bool : Reading Bool where
  wanted := "bool"
  read?
    | .bool b => some b
    | _ => none

def vector : Reading Vec3 where
  wanted := "vector"
  read?
    | .vec3 v => some v
    | _ => none

def numOrVec : Reading NumOrVec where
  wanted := "numvec"
  read?
    | .double d => some (.num d)
    | .vec3 v => some (.vec v)
    | _ => none

def list : Reading (List Iota) := ⟨"list", Iota.asList?⟩

def entity : Reading EntityRef := ⟨"entity", Iota.asEntity?⟩

/-- A reference to a stack lying in the world. -/
def itemEntity : Reading EntityRef where
  wanted := "entity.item"
  read? i := i.asEntity?.filter (·.isItem)

end Reading

/-- The popped arguments of an operator, bottom-most first, and how many it takes. -/
structure Arguments where
  values : List Iota
  argc : Nat

namespace Arguments

/-- The argument at a place, counted from the bottom. -/
def any (a : Arguments) (idx : Nat) : Except Mishap Iota :=
  match a.values[idx]? with
  | some i => .ok i
  | none => .error (.tooFew (max a.argc (idx + 1)) a.values.length)

/-- The argument at a place, read as wanted. -/
def get {α : Type} (a : Arguments) (reading : Reading α) (idx : Nat) : Except Mishap α :=
  match a.any idx with
  | .error m => .error m
  | .ok i =>
    match reading.read? i with
    | some value => .ok value
    | none => .error (.wrongType i idx a.argc reading.wanted)

end Arguments

end Spellcasting
