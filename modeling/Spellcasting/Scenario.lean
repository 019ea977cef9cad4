import Spellcasting.Casting.Limits
import Spellcasting.Hand
import Spellcasting.Iota
import Spellcasting.Media.Registry

/-! # Scenarios

A scenario describes a sandbox world and a program to cast in it: the caster, the media capabilities
besides the stock ones, the entities by name, and the steps of the program.
-/

namespace Spellcasting

/-- The caster of a scenario. -/
structure CasterSpec where
  position : Vec3
  media : Media
  castingHand : Hand
  /-- The radius of the ambit, where it is not the configured one. -/
  ambit : Option Double
  mainHand : Option ItemStack
  offHand : Option ItemStack

/-- A caster at the origin with nothing. -/
def CasterSpec.plain : CasterSpec where
  position := .zero
  media := 0
  castingHand := .main
  ambit := none
  mainHand := none
  offHand := none

/-- An entity of a scenario. Only stacks lying in the world carry their item. -/
structure EntitySpec where
  name : String
  kind : EntityKind
  position : Vec3
  item : Option ItemStack
  alive : Bool

/-- A step of the program of a scenario. -/
inductive ScenarioStep where
  | push (iota : Iota)
  /-- Pushes the reference of the entity of a name. -/
  | entity (name : String)
  /-- Evaluates the stock operator of a name. -/
  | op (name : String)

/-- A world to be built and a program to be cast in it. -/
structure Scenario where
  caster : CasterSpec
  media : List (ItemId × MediaCapability)
  entities : List EntitySpec
  program : List ScenarioStep

end Spellcasting
