import Spellcasting.Double

/-! # Data trees

What the written formats have in common: trees of texts, numbers, truth values, arrays and objects.
The members of an object keep their order, and no two of them should have one key.
-/

namespace Spellcasting

/-- A data tree. Whole numbers are kept apart from doubles. -/
inductive Tree where
  | null
  | bool (value : Bool)
  | int (value : Int)
  | float (value : Double)
  | text (value : String)
  | array (elements : List Tree)
  | object (members : List (String × Tree))

namespace Tree

instance : Inhabited Tree := ⟨null⟩

mutual

/-- How deeply arrays and objects are nested. -/
def depth : Tree → Nat
  | array elements => depthAll elements + 1
  | object members => depthMembers members + 1
  | _ => 0

/-- The greatest depth among some trees. -/
def depthAll : List Tree → Nat
  | [] => 0
  | t :: rest => max (depth t) (depthAll rest)

/-- The greatest depth among some members. -/
def depthMembers : List (String × Tree) → Nat
  | [] => 0
  | (_, t) :: rest => max (depth t) (depthMembers rest)

end

/-- The tree of a double; only finite doubles can be written as numbers. -/
def ofDouble (x : Double) : Tree := if x.isFinite then float x else null

/-- The tree of a word. -/
def ofWord (n : UInt64) : Tree := int n.toNat

end Tree

end Spellcasting
