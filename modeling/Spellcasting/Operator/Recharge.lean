import Spellcasting.Environment
import Spellcasting.Operator.Arguments
import Spellcasting.Spray

/-! # Recharging a held item

The spell draws media out of a stack lying in the world and puts it into a held holder. Evaluation
picks the hand and checks everything against the world as it is; the commit works from what was
captured and moves what can be moved by then, or does nothing if the target or the holder is gone.
-/

namespace Spellcasting

/-- A recharge that is ready to be committed: whom it drains, which hand it fills, and what that
hand held when it was evaluated. -/
structure Recharge where
  target : EntityId
  hand : Hand
  holderItem : ItemId
  deriving DecidableEq

namespace Recharge

def cost : Media := Media.shardUnit

/-- The size of the burst shown at the target. -/
def burstSize : Double := 0.5

/-- The holder of a stack that spells may refill. -/
def rechargeable? (registry : MediaRegistry) (stack : ItemStack) : Option MediaHolder :=
  (registry.findHolder stack).filter (·.canRecharge)

/-- Whether a stack can be recharged and has room for more media. -/
def hasRoom (registry : MediaRegistry) (stack : ItemStack) : Bool :=
  match rechargeable? registry stack with
  | none => false
  | some holder => holder.freeCapacity > 0

variable {ω : Type} [CastingEnv ω]

/-- The spell for a target, `none` if the selected holder is already full. The checks come in a
fixed order: the argument, the held item, the range, the media of the target, the room in the
holder. -/
def evaluate (args : List Iota) (w : ω) : Except Mishap (Option (Recharge × Spray)) := do
  let entity ← (Arguments.mk args 1).get .itemEntity 0
  let registry := CastingEnv.registry w
  let held := CastingEnv.heldItemFor w (hasRoom registry)
  match rechargeable? registry held.stack with
  | none => .error (.badOffhandItem held.stack held.hand "rechargeable")
  | some holder =>
    let state ← CastingEnv.reachable w entity
    let source := state.item.getD .empty
    if registry.isMediaItem source then
      if holder.freeCapacity = 0 then .ok none
      else .ok (some (⟨entity.id, held.hand, held.stack.item⟩, .burst state.position burstSize))
    else .error (.badItem entity source "media")

/-- Moves as much media as the target gives and the holder takes. A target left with nothing is
gone. -/
def commit (spell : Recharge) (w : ω) : ω :=
  let registry := CastingEnv.registry w
  match CastingEnv.entitySlot? w spell.target with
  | none => w
  | some source =>
    match (CastingEnv.heldSlot? w spell.hand).filter (·.item = spell.holderItem) with
    | none => w
    | some held =>
      match registry.findHolder held with
      | none => w
      | some holder =>
        let (drawn, rest) := registry.extract source (.units holder.freeCapacity) false
        let (_, filled) := holder.insert (.units drawn) false
        let w := CastingEnv.setHeldItem w spell.hand filled.stack
        let w := CastingEnv.setEntityItem w spell.target rest
        if rest.isEmpty then CastingEnv.kill w spell.target else w

end Recharge

end Spellcasting
