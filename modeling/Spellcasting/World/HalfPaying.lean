import Spellcasting.World

/-! # A world that pays by halves

A sandbox world whose reserve promises an amount in full when asked what could be drawn, and then
gives only half of it. The focus is always in the main hand. Everything else is as in the world
itself.
-/

namespace Spellcasting

/-- A sandbox world behind a reserve that gives half of what is drawn. -/
structure HalfPaying where
  world : World

namespace HalfPaying

instance : CastingEnv HalfPaying where
  casterPosition h := h.world.casterPosition
  ambitRadius h := h.world.ambitRadius
  castingHand _ := .main
  registry h := h.world.registry
  heldItem h := h.world.held
  heldSlot? h := CastingEnv.heldSlot? h.world
  setHeldItem h hand stack := ⟨h.world.hold hand stack⟩
  entity? h := CastingEnv.entity? h.world
  entitySlot? h := h.world.entitySlot?
  setEntityItem h id stack := ⟨h.world.setEntityItem id stack⟩
  kill h id := ⟨h.world.kill id⟩
  withdraw h amount simulate :=
    let (taken, after) := h.world.withdraw (if simulate then amount else amount / 2) simulate
    (taken, ⟨after⟩)

end HalfPaying

end Spellcasting
