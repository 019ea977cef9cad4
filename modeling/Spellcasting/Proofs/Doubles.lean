import Spellcasting.Proofs.KeyValues
import Spellcasting.Serial.Mishap

/-! # The doubles of a value

Each type of value lists the doubles inside its values, and where in the written tree each of them
stands. What stands there is the number, or null in the place of a double that is not finite.
-/

namespace Spellcasting

/-- A double and the place at which it is written. -/
abbrev PlacedDouble := Tree.Place × Double

/-- The doubles of a part, as those of the whole that has the part under a key. -/
def under (key : Tree.Key) (doubles : List PlacedDouble) : List PlacedDouble :=
  doubles.map fun d => (key :: d.1, d.2)

/-- A double that is written by itself. -/
def alone (d : Double) : List PlacedDouble := [([], d)]

namespace Vec3

def doubles (v : Vec3) : List PlacedDouble :=
  under (.field "x") (alone v.x) ++ under (.field "y") (alone v.y) ++ under (.field "z") (alone v.z)

end Vec3

namespace Spray

def doubles (s : Spray) : List PlacedDouble :=
  under (.field "pos") s.pos.doubles ++ under (.field "vel") s.vel.doubles ++
    under (.field "fuzziness") (alone s.fuzziness) ++ under (.field "spread") (alone s.spread)

end Spray

namespace EntityRef

/-- There is no double in a reference. -/
def doubles (_ : EntityRef) : List PlacedDouble := []

end EntityRef

namespace ItemStack

/-- There is no double in a stack of items. -/
def doubles (_ : ItemStack) : List PlacedDouble := []

end ItemStack

namespace Iota

mutual

def doubles : Iota → List PlacedDouble
  | double d => under (.field "value") (alone d)
  | vec3 v => under (.field "value") v.doubles
  | list items => under (.field "value") (doublesFrom 0 items)
  | entity e => under (.field "value") e.doubles
  | item s => under (.field "value") s.doubles
  | null => []
  | bool _ => []
  | pattern _ => []
  | garbage => []

/-- The doubles of some iotas that stand in an array, the first of them at the given index. -/
def doublesFrom : Nat → List Iota → List PlacedDouble
  | _, [] => []
  | start, i :: rest => under (.index start) (doubles i) ++ doublesFrom (start + 1) rest

end

end Iota

namespace Mishap

def doubles : Mishap → List PlacedDouble
  | invalidIota _ _ got => under (.field "got") got.doubles
  | badItem entity item _ =>
    under (.field "entity") entity.doubles ++ under (.field "item") item.doubles
  | badOffhandItem item _ _ => under (.field "item") item.doubles
  | entityTooFarAway entity => under (.field "entity") entity.doubles
  | locationTooFarAway location => under (.field "location") location.doubles
  | divideByZero operand1 operand2 =>
    under (.field "operand1") operand1.doubles ++ under (.field "operand2") operand2.doubles
  | notEnoughArgs .. => []
  | notEnoughMedia .. => []
  | evalTooDeep _ => []
  | stackOverflow _ => []
  | invalidPattern _ => []

end Mishap

namespace Tree

/-- Every one of the doubles is written at its place. -/
def Holds (t : Tree) (doubles : List PlacedDouble) : Prop :=
  ∀ d ∈ doubles, t.at? d.1 = some (.ofDouble d.2)

namespace Holds

variable {t part : Tree} {key : Key} {doubles more : List PlacedDouble}

theorem nil (t : Tree) : t.Holds [] := by
  intro d mem
  cases mem

theorem append (first : t.Holds doubles) (second : t.Holds more) : t.Holds (doubles ++ more) := by
  intro d mem
  rcases List.mem_append.mp mem with mem | mem
  · exact first d mem
  · exact second d mem

theorem under (child : t.child? key = some part) (holds : part.Holds doubles) :
    t.Holds (under key doubles) := by
  intro d mem
  obtain ⟨inner, inside, rfl⟩ := List.mem_map.mp mem
  rw [at?, child, Option.bind_some, holds inner inside]

theorem alone (d : Double) : (ofDouble d).Holds (alone d) := by
  intro inner mem
  cases List.mem_singleton.mp mem
  rfl

end Holds

end Tree

theorem Vec3.holds (v : Vec3) : v.toTree.Holds v.doubles :=
  ((Tree.Holds.under rfl (.alone v.x)).append (.under rfl (.alone v.y))).append
    (.under rfl (.alone v.z))

theorem Spray.holds (s : Spray) : s.toTree.Holds s.doubles :=
  (((Tree.Holds.under rfl s.pos.holds).append (.under rfl s.vel.holds)).append
    (.under rfl (.alone s.fuzziness))).append (.under rfl (.alone s.spread))

namespace Iota

mutual

theorem holds : ∀ i : Iota, i.toTree.Holds i.doubles
  | null => .nil _
  | double d => .under rfl (.alone d)
  | bool _ => .nil _
  | vec3 v => .under rfl v.holds
  | list items => .under rfl (holdsFrom [] items)
  | entity _ => .nil _
  | item _ => .nil _
  | pattern _ => .nil _
  | garbage => .nil _

theorem holdsFrom (before : List Tree) : ∀ items : List Iota,
    (Tree.array (before ++ toTrees items)).Holds (doublesFrom before.length items)
  | [] => .nil _
  | i :: rest => by
      have first : (Tree.array (before ++ toTree i :: toTrees rest)).child? (.index before.length) =
          some i.toTree := by
        simp only [Tree.child?, List.getElem?_append_right (Nat.le_refl _), Nat.sub_self,
          List.getElem?_cons_zero]
      have others := holdsFrom (before ++ [i.toTree]) rest
      rw [List.append_assoc, List.length_append] at others
      exact (Tree.Holds.under first (holds i)).append others

end

end Iota

theorem Mishap.holds (m : Mishap) : m.toTree.Holds m.doubles := by
  cases m with
  | invalidIota _ _ got => exact .under rfl got.holds
  | locationTooFarAway location => exact .under rfl location.holds
  | divideByZero operand1 operand2 =>
      exact (Tree.Holds.under rfl operand1.holds).append (.under rfl operand2.holds)
  | _ => exact .nil _

end Spellcasting
