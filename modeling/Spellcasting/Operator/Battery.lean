import Spellcasting.Operator.Recharge

/-! # Crafting a battery

The spell bottles all media of a stack lying in the world: the single glass bottle in the caster's
hand becomes a battery that is exactly full, and the stack is used up. Only media that may be
bottled counts, so a battery is not made from another.
-/

namespace Spellcasting

/-- A battery that is ready to be made: whose media it takes and which hand holds the bottle. -/
structure CraftBattery where
  target : EntityId
  hand : Hand
  deriving DecidableEq

namespace CraftBattery

def cost : Media := Media.crystalUnit

/-- Draws everything that may go into a battery. The first answer is the amount, the second the
stack afterwards. -/
def drain (registry : MediaRegistry) (stack : ItemStack) (simulate : Bool) : Media × ItemStack :=
  match registry.findHolder stack with
  | none => (0, stack)
  | some holder =>
    if holder.canProvide && holder.canConstructBattery then
      let (taken, after) := holder.withdraw .unlimited simulate
      (taken, after.stack)
    else (0, stack)

/-- A battery that stores so much media and has room for no more. -/
def battery (media : Media) : ItemStack :=
  (ItemStack.new .battery 1).withMedia media |>.withMaxMedia media

variable {ω : Type} [CastingEnv ω]

/-- The spell for a target. The checks come in a fixed order: the argument, the bottle, that there
is only one, the range, the media of the target. -/
def evaluate (args : List Iota) (w : ω) : Except Mishap (Option (CraftBattery × Spray)) := do
  let entity ← (Arguments.mk args 1).get .itemEntity 0
  let held := CastingEnv.heldItemFor w (·.is .glassBottle)
  if !held.stack.is .glassBottle then
    .error (.badOffhandItem held.stack held.hand "bottle")
  else if held.stack.count ≠ 1 then
    .error (.badOffhandItem held.stack held.hand "only_one")
  else
    let state ← CastingEnv.reachable w entity
    let registry := CastingEnv.registry w
    let source := state.item.getD .empty
    if !registry.isMediaItem source || (drain registry source true).1 = 0 then
      .error (.badItem entity source "media_for_battery")
    else
      .ok (some (⟨entity.id, held.hand⟩, .burst state.position Recharge.burstSize))

/-- Turns the one bottle in the hand into a battery with all media of the target. A target left with
nothing is gone. -/
def commit (spell : CraftBattery) (w : ω) : ω :=
  let bottle := CastingEnv.heldItem w spell.hand
  if bottle.is .glassBottle && bottle.count = 1 then
    match CastingEnv.entitySlot? w spell.target with
    | none => w
    | some source =>
      let (media, rest) := drain (CastingEnv.registry w) source false
      let w := if media > 0 then CastingEnv.setHeldItem w spell.hand (battery media) else w
      let w := CastingEnv.setEntityItem w spell.target rest
      if rest.isEmpty then CastingEnv.kill w spell.target else w
  else w

end CraftBattery

end Spellcasting
