import Spellcasting.Proofs.Preparation
import Spellcasting.Proofs.Transfers

/-! # Whether crafted batteries are full

A crafted battery carries the media it was made from and has room for no more. What it is worth is
for the registry to say: where the scenario makes batteries something that is spent whole, it is
worth what one of them is worth, however much went into it.
-/

namespace Spellcasting

namespace CraftBattery

theorem freeCapacity_battery (media : Media) (capability : MediaCapability) :
    (⟨battery media, capability⟩ : MediaHolder).freeCapacity = 0 := by
  cases capability with
  | dust perItem => rfl
  | battery capacity rechargeable =>
      apply UInt64.toNat_inj.mp
      rw [MediaHolder.toNat_freeCapacity_battery rfl]
      exact Nat.sub_self media.toNat

theorem withdraw_battery (media capacity : Media) (rechargeable simulate : Bool) :
    ((⟨battery media, .battery capacity rechargeable⟩ : MediaHolder).withdraw
      .unlimited simulate).1 = media := by
  rw [MediaHolder.withdraw_fst]
  rfl

theorem withdraw_battery_dust (media perItem : Media) (simulate : Bool) :
    ((⟨battery media, .dust perItem⟩ : MediaHolder).withdraw .unlimited simulate).1 = perItem := by
  rw [MediaHolder.withdraw_fst]
  exact UInt64.one_mul perItem

/-- In the world of any scenario batteries hold media: as the scenario says, and else as they
usually do. -/
theorem exists_capability (s : Scenario) :
    ∃ capability, s.registry.capability? .battery = some capability ∧
      ∀ perItem, s.entry? .battery = some (.dust perItem) ↔ capability = .dust perItem := by
  have known := s.capability?_registry .battery
  cases entry : s.entry? .battery with
  | none =>
      rw [entry, Option.none_or] at known
      refine ⟨_, known, fun perItem => ⟨fun dust => ?_, fun dust => ?_⟩⟩
      · cases dust
      · cases dust
  | some capability =>
      rw [entry] at known
      exact ⟨capability, known, fun perItem => Option.some_inj⟩

/-- A commit that changes what is in the hand puts a battery there, with all that it drained. -/
theorem exists_battery {spell : CraftBattery} {w : World}
    (changed : (spell.commit w).held spell.hand ≠ w.held spell.hand) :
    ∃ source, w.entitySlot? spell.target = some source ∧
      0 < (drain w.registry source false).1 ∧ (spell.commit w).registry = w.registry ∧
      (spell.commit w).held spell.hand = battery (drain w.registry source false).1 := by
  rcases spell.commit_cases w with same | ⟨source, bottle, single, slot⟩
  · exact absurd (congrArg (World.held · spell.hand) same) changed
  · have committed := commit_eq bottle single slot
    by_cases drawn : (drain w.registry source false).1 > 0
    · rw [committed]
      refine ⟨source, slot, drawn, World.registry_exchange .., ?_⟩
      rw [World.held_exchange, if_pos rfl, if_pos drawn]
    · -- where nothing is drained, the bottle goes back into the hand
      refine absurd ?_ changed
      rw [committed, World.held_exchange, if_pos rfl, if_neg drawn]

end CraftBattery

/-- A crafted battery is a holder without room in the world of its scenario. All media that went
into it can be drawn from it again, unless the scenario has made batteries into dust: then it is
worth one of them. -/
theorem crafted_batteries_are_full (s : Scenario) {w : World} (built : w.registry = s.registry)
    (spell : CraftBattery) (changed : (spell.commit w).held spell.hand ≠ w.held spell.hand) :
    ∃ source holder, w.entitySlot? spell.target = some source ∧
      0 < (CraftBattery.drain w.registry source false).1 ∧
      (spell.commit w).registry.findHolder ((spell.commit w).held spell.hand) = some holder ∧
      holder.freeCapacity = 0 ∧
      (∀ perItem, s.entry? .battery = some (.dust perItem) →
        (holder.withdraw .unlimited false).1 = perItem) ∧
      ((∀ perItem, s.entry? .battery ≠ some (.dust perItem)) →
        (holder.withdraw .unlimited false).1 =
          (CraftBattery.drain w.registry source false).1) := by
  obtain ⟨source, slot, positive, kept, made⟩ := CraftBattery.exists_battery changed
  obtain ⟨capability, known, kind⟩ := CraftBattery.exists_capability s
  generalize drained : (CraftBattery.drain w.registry source false).1 = media at positive made
  refine ⟨source, ⟨CraftBattery.battery media, capability⟩, slot, ?_⟩
  rw [drained]
  refine ⟨positive, ?_, CraftBattery.freeCapacity_battery media capability, ?_, ?_⟩
  · rw [made, kept, built]
    exact MediaRegistry.findHolder_eq_some.mpr ⟨rfl, known, rfl⟩
  · intro perItem dust
    obtain rfl := (kind perItem).mp dust
    exact CraftBattery.withdraw_battery_dust media perItem false
  · intro noDust
    cases capability with
    | dust perItem => exact absurd ((kind perItem).mpr rfl) (noDust perItem)
    | battery capacity rechargeable => exact CraftBattery.withdraw_battery ..

namespace Scenario

/-- A caster with one glass bottle and two pieces of dust to fill it from, where some items may hold
media as they usually do not. -/
def bottling (media : List (ItemId × MediaCapability)) : Scenario where
  caster := { CasterSpec.plain with mainHand := some (.new .glassBottle 1) }
  media := media
  entities := [⟨"Dust", .item, .zero, some (.new .amethystDust 2), true⟩]
  program := []

end Scenario

/-- The media of the dust can be drawn again from the battery that was made of it. -/
theorem bottled_dust_can_be_drawn_again :
    let s := Scenario.bottling []
    let spell : CraftBattery := ⟨.ofNat 0, .main⟩
    ∃ p holder, s.prepare EntityId.ofNat .standard = .ok p ∧ p.world.registry = s.registry ∧
      (spell.commit p.world).held .main ≠ p.world.held .main ∧
      (spell.commit p.world).registry.findHolder ((spell.commit p.world).held .main) =
        some holder ∧
      holder.freeCapacity = 0 ∧ (holder.withdraw .unlimited false).1 = 20000 := by
  intro s spell
  obtain ⟨p, prepared, built, changed, slot⟩ : ∃ p, s.prepare EntityId.ofNat .standard = .ok p ∧
      p.world.registry = s.registry ∧
      (spell.commit p.world).held .main ≠ p.world.held .main ∧
      p.world.entitySlot? spell.target = some (.new .amethystDust 2) :=
    ⟨_, rfl, rfl, by decide +kernel, rfl⟩
  obtain ⟨source, holder, same, -, found, full, -, drawn⟩ :=
    crafted_batteries_are_full s built spell changed
  cases slot.symm.trans same
  have unchanged : s.entry? .battery = none := rfl
  refine ⟨p, holder, prepared, built, changed, found, full, ?_⟩
  rw [drawn fun perItem => by rw [unchanged]; exact nofun, built]
  decide +kernel

/-- Where batteries are dust, the one made of two pieces of dust is worth as little as any other. -/
theorem batteries_of_dust_do_not_keep_what_went_in :
    let s := Scenario.bottling [(.battery, .dust 7)]
    let spell : CraftBattery := ⟨.ofNat 0, .main⟩
    ∃ p source holder, s.prepare EntityId.ofNat .standard = .ok p ∧
      (spell.commit p.world).held .main ≠ p.world.held .main ∧
      p.world.entitySlot? spell.target = some source ∧
      (CraftBattery.drain p.world.registry source false).1 = 20000 ∧
      (spell.commit p.world).registry.findHolder ((spell.commit p.world).held .main) =
        some holder ∧
      (holder.withdraw .unlimited false).1 = 7 := by
  intro s spell
  exact ⟨_, _, _, rfl, by decide +kernel, rfl, by decide +kernel, rfl, by decide +kernel⟩

end Spellcasting
