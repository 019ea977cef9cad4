import Spellcasting.Proofs.Confinement
import Spellcasting.Proofs.Stepwise
import Spellcasting.Proofs.Transfers

/-! # Spells committed where they were answered

All that a commit may stumble over has been checked when its spell was answered. So a spell that is
committed in the world that answered it never fails: a recharge moves as much as it can, which is
something, and a crafted battery holds all that the target was worth. The payment does not touch
what the checks have looked at, so this holds of the first spell of every accepted batch.
-/

namespace Spellcasting

/-- A crafted battery that had its full effect: the hand holds a battery with exactly what the
target was worth, and the target is used up. -/
structure CraftBattery.Makes (spell : CraftBattery) (w w' : World) (source : ItemStack)
    (media : Media) : Prop where
  carried : w.entitySlot? spell.target = some source
  worth : media.toNat = w.registry.worth source
  positive : 1 ≤ media.toNat
  made : w'.held spell.hand = ⟨.battery, 1, media, some media⟩
  used : ∃ e rest, w'.roster.find? spell.target = some e ∧ e.alive = false ∧
    e.item = some rest ∧ rest.isEmpty = true

section

variable {w : World} {args : List Iota} {ref : EntityRef} {state : EntityState}

theorem Targeted.slot (checked : Targeted w args ref state) :
    ∃ source, w.entitySlot? ref.id = some source ∧ state.item = some source ∧
      0 < w.registry.withdrawable source := by
  obtain ⟨alive, source, item, media⟩ := checked.carries
  rw [MediaRegistry.isMediaItem_eq] at media
  exact ⟨source, World.entitySlot?_eq_some.mpr ⟨state, checked.known, alive, item⟩, item,
    of_decide_eq_true media⟩

/-- Whether a spell is answered does not depend on what the caster has to pay with. -/
theorem Spell.CapturedIn.reserve {spell : Spell World} (captured : spell.CapturedIn w args)
    (casterMedia : Media) : spell.CapturedIn { w with casterMedia } args := by
  cases captured with
  | recharge answered => exact .recharge answered
  | craftBattery answered => exact .craftBattery answered

end

end Spellcasting
