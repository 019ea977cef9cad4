import Spellcasting.Entity
import Spellcasting.Item
import Spellcasting.Vec3

/-! # Iotas

The typed values that flow through the casting stack.
-/

namespace Spellcasting

/-- A value on the casting stack. -/
inductive Iota where
  | null
  | double (value : Double)
  | bool (value : Bool)
  | vec3 (value : Vec3)
  | list (items : List Iota)
  | entity (ref : EntityRef)
  | item (stack : ItemStack)
  /-- A drawn pattern, by the signature of its angles. -/
  | pattern (signature : String)
  /-- What a failed operation leaves behind. -/
  | garbage

/-- The nine kinds of iota. -/
inductive IotaKind where
  | null
  | double
  | bool
  | vec3
  | list
  | entity
  | item
  | pattern
  | garbage
  deriving DecidableEq

namespace IotaKind

/-- The kinds and their names, in order. -/
def names : List (String × IotaKind) :=
  [("null", null), ("double", double), ("bool", bool), ("vec3", vec3), ("list", list),
    ("entity", entity), ("item", item), ("pattern", pattern), ("garbage", garbage)]

def name : IotaKind → String
  | null => "null"
  | double => "double"
  | bool => "bool"
  | vec3 => "vec3"
  | list => "list"
  | entity => "entity"
  | item => "item"
  | pattern => "pattern"
  | garbage => "garbage"

end IotaKind

namespace Iota

instance : Inhabited Iota := ⟨null⟩

def kind : Iota → IotaKind
  | null => .null
  | double _ => .double
  | bool _ => .bool
  | vec3 _ => .vec3
  | list _ => .list
  | entity _ => .entity
  | item _ => .item
  | pattern _ => .pattern
  | garbage => .garbage

/-- The greatest difference that tolerant comparison overlooks. -/
def tolerance : Double := 0.0001

/-- Whether the value counts as true: a number by its size, a vector unless it is the origin, a list
unless it is empty. -/
def isTruthy : Iota → Bool
  | null => false
  | garbage => false
  | bool b => b
  | double d => d.abs >= tolerance
  | vec3 v => !v.same .zero
  | list items => !items.isEmpty
  | entity _ => true
  | item _ => true
  | pattern _ => true

def asDouble? : Iota → Option Double
  | double d => some d
  | _ => none

def asList? : Iota → Option (List Iota)
  | list items => some items
  | _ => none

def asEntity? : Iota → Option EntityRef
  | entity e => some e
  | _ => none

mutual

/-- The text shown to the caster; numbers have two decimals. -/
def text : Iota → String
  | null => "Null"
  | double d => Decimal.fixed 2 d
  | bool b => if b then "true" else "false"
  | vec3 v => v.text
  | list items => "[" ++ String.intercalate ", " (texts items) ++ "]"
  | entity e => e.text
  | item s => s.text
  | pattern signature => "HexPattern(" ++ signature ++ ")"
  | garbage => "Garbage"

/-- The texts of some iotas, in order. -/
def texts : List Iota → List String
  | [] => []
  | i :: rest => text i :: texts rest

end

end Iota

end Spellcasting
