import Mathlib.Data.List.Nodup
import Spellcasting.Casting.Batch
import Spellcasting.Proofs.Holders
import Spellcasting.World

/-! # What an accepted batch does to a world

The payment only draws on the reserve of the caster. Both stock spells either leave a world as it is
or make one `exchange` in it: a hand gets another stack, and the target keeps what is left of its
own, dying if that is nothing. Everything that is claimed of commits goes through this one shape.
-/

namespace Spellcasting

namespace Roster

theorem edit_edit (r : Roster) (id : EntityId) (first later : Edit) :
    (r.edit id first).edit id later =
      r.edit id ⟨later.position ∘ first.position, later.alive ∘ first.alive,
        later.item ∘ first.item⟩ := by
  simp only [edit, List.map_map, mk.injEq]
  apply List.map_congr_left
  intro e _
  by_cases same : e.ref.id = id <;> simp [Edit.apply, same]

theorem find?_of_mem {r : Roster} {e : EntityState} (member : e ∈ r.entries) :
    r.find? e.ref.id = some e := by
  cases found : r.find? e.ref.id with
  | none =>
      have absent := List.find?_eq_none.mp found e member
      simp at absent
  | some other =>
      have kept := List.mem_of_find?_eq_some found
      rw [List.inj_on_of_nodup_map r.distinct kept member (id_of_find? found)]

theorem edit_eq_self {r : Roster} {id : EntityId} {change : Edit}
    (same : ∀ e, r.find? id = some e → change.apply e = e) : r.edit id change = r := by
  have kept : (r.entries.map fun e => if e.ref.id = id then change.apply e else e) = r.entries := by
    refine (List.map_congr_left fun e member => ?_).trans (List.map_id r.entries)
    split
    · next target =>
        subst target
        exact same e (find?_of_mem member)
    · rfl
  simp only [edit, kept]

/-- Leaves an entity with a stack, and without its life if the stack is empty. -/
def Edit.leaving (rest : ItemStack) : Edit where
  alive := fun alive => alive && !rest.isEmpty
  item := fun _ => some rest

end Roster

namespace World

theorem entitySlot?_eq_some {w : World} {id : EntityId} {stack : ItemStack} :
    w.entitySlot? id = some stack ↔
      ∃ e, w.roster.find? id = some e ∧ e.alive = true ∧ e.item = some stack := by
  unfold entitySlot?
  cases w.roster.find? id with
  | none => simp
  | some e => cases alive : e.alive <;> simp [alive]

@[simp] theorem roster_hold (w : World) (hand : Hand) (stack : ItemStack) :
    (w.hold hand stack).roster = w.roster := by cases hand <;> rfl

@[simp] theorem entitySlot?_hold (w : World) (hand : Hand) (stack : ItemStack) (id : EntityId) :
    (w.hold hand stack).entitySlot? id = w.entitySlot? id := by
  simp only [entitySlot?, roster_hold]

@[simp] theorem hold_held (w : World) (hand : Hand) : w.hold hand (w.held hand) = w := by
  cases hand <;> rfl

/-- Puts a stack in a hand and leaves an entity with what remains of its own. -/
def exchange (w : World) (hand : Hand) (stack : ItemStack) (target : EntityId)
    (rest : ItemStack) : World :=
  { w.hold hand stack with roster := w.roster.edit target (.leaving rest) }

section exchange

variable (w : World) (hand : Hand) (stack : ItemStack) (target : EntityId) (rest : ItemStack)

@[simp] theorem held_exchange (other : Hand) :
    (w.exchange hand stack target rest).held other =
      if other = hand then stack else w.held other := by
  cases hand <;> cases other <;> rfl

@[simp] theorem find?_exchange (id : EntityId) :
    (w.exchange hand stack target rest).roster.find? id =
      if id = target then (w.roster.find? id).map (Roster.Edit.leaving rest).apply
      else w.roster.find? id :=
  Roster.find?_edit w.roster target id (.leaving rest)

@[simp] theorem casterMedia_exchange :
    (w.exchange hand stack target rest).casterMedia = w.casterMedia := by cases hand <;> rfl

@[simp] theorem casterPosition_exchange :
    (w.exchange hand stack target rest).casterPosition = w.casterPosition := by cases hand <;> rfl

@[simp] theorem ambitRadius_exchange :
    (w.exchange hand stack target rest).ambitRadius = w.ambitRadius := by cases hand <;> rfl

@[simp] theorem castingHand_exchange :
    (w.exchange hand stack target rest).castingHand = w.castingHand := by cases hand <;> rfl

@[simp] theorem registry_exchange :
    (w.exchange hand stack target rest).registry = w.registry := by cases hand <;> rfl

variable {w target} in
/-- The writes of a commit, one after the other, are an exchange. -/
theorem exchange_eq {source : ItemStack} (slot : w.entitySlot? target = some source) :
    (if rest.isEmpty then ((w.hold hand stack).setEntityItem target rest).kill target
      else (w.hold hand stack).setEntityItem target rest) =
      w.exchange hand stack target rest := by
  simp only [setEntityItem, entitySlot?_hold, slot, Option.isSome_some, if_true, roster_hold,
    exchange, kill]
  cases empty : rest.isEmpty with
  | true =>
      simp only [if_true, Roster.edit_edit]
      congr 2
      simp only [Roster.Edit.leaving, empty, Bool.not_true, Bool.and_false]
      rfl
  | false =>
      simp only [Bool.false_eq_true, if_false, Roster.Edit.leaving, empty, Bool.not_false,
        Bool.and_true]

end exchange

section

variable {w : World} {hand : Hand} {stack source rest : ItemStack} {target id : EntityId}

theorem setEntityItem_self (slot : w.entitySlot? target = some source) :
    w.setEntityItem target source = w := by
  obtain ⟨e, found, -, item⟩ := entitySlot?_eq_some.mp slot
  have kept : w.roster.edit target { item := fun _ => some source } = w.roster := by
    refine Roster.edit_eq_self fun other known => ?_
    obtain rfl := Option.some.inj (found.symm.trans known)
    obtain ⟨ref, position, life, stack⟩ := e
    cases item
    rfl
  simp only [setEntityItem, slot, Option.isSome_some, if_true, kept]

theorem exchange_self (hand : Hand) (slot : w.entitySlot? target = some source)
    (present : source.isEmpty = false) : w.exchange hand (w.held hand) target source = w := by
  rw [← exchange_eq _ _ _ slot, present, if_neg Bool.false_ne_true, hold_held,
    setEntityItem_self slot]

theorem exchange_self_of_isEmpty (hand : Hand) (slot : w.entitySlot? target = some source)
    (empty : source.isEmpty = true) :
    w.exchange hand (w.held hand) target source = w.kill target := by
  rw [← exchange_eq _ _ _ slot, if_pos empty, hold_held, setEntityItem_self slot]

theorem isAlive_exchange (hand : Hand) (stack rest : ItemStack)
    (slot : w.entitySlot? target = some source) :
    (w.exchange hand stack target rest).isAlive target = !rest.isEmpty := by
  obtain ⟨e, found, alive, -⟩ := entitySlot?_eq_some.mp slot
  simp only [isAlive, find?_exchange, found, if_true, Option.map_some, Roster.Edit.apply,
    Roster.Edit.leaving, alive, Bool.true_and]

theorem entityItem?_exchange (w : World) (hand : Hand) (stack : ItemStack) {target : EntityId}
    {source : ItemStack} (rest : ItemStack) (slot : w.entitySlot? target = some source) :
    (w.exchange hand stack target rest).entityItem? target = some rest := by
  obtain ⟨e, found, -, -⟩ := entitySlot?_eq_some.mp slot
  simp only [entityItem?, find?_exchange, found, if_true]
  rfl

theorem entityItem?_kill (w : World) (target id : EntityId) :
    (w.kill target).entityItem? id = w.entityItem? id := by
  simp only [entityItem?, kill, Roster.find?_edit]
  split
  · cases w.roster.find? id <;> rfl
  · rfl

theorem entitySlot?_exchange_target (slot : w.entitySlot? target = some source) :
    (w.exchange hand stack target rest).entitySlot? target =
      if rest.isEmpty then none else some rest := by
  obtain ⟨e, found, alive, -⟩ := entitySlot?_eq_some.mp slot
  simp only [entitySlot?, find?_exchange, found, if_true, Option.map_some, Roster.Edit.apply,
    Roster.Edit.leaving, alive, Bool.true_and]
  cases rest.isEmpty <;> rfl

theorem entitySlot?_exchange_other (other : id ≠ target) :
    (w.exchange hand stack target rest).entitySlot? id = w.entitySlot? id := by
  simp only [entitySlot?, find?_exchange, other, if_false]

end

end World

namespace CastingState

variable {limits : Limits} {price drawn : Media} {w paid : World}

theorem pay_eq : pay limits price w =
    if limits.requireMedia && price > 0 then
      let available := (MediaAmount.units price).clamp w.casterMedia
      if available < price then (.error (.notEnoughMedia price available), w)
      else (.ok available, { w with casterMedia := w.casterMedia - available })
    else (.ok 0, w) := rfl

theorem pay_ok (h : pay limits price w = (.ok drawn, paid)) :
    drawn ≤ w.casterMedia ∧ paid = { w with casterMedia := w.casterMedia - drawn } := by
  rw [pay_eq] at h
  split at h
  · dsimp only at h
    split at h
    · cases h
    · cases h
      exact ⟨(MediaAmount.units price).clamp_le w.casterMedia, rfl⟩
  · cases h
    refine ⟨UInt64.le_iff_toNat_le.mpr (Nat.zero_le _), ?_⟩
    rw [UInt64.sub_zero]

end CastingState

theorem Recharge.commit_eq {spell : Recharge} {w : World} {source : ItemStack}
    {holder : MediaHolder} (slot : w.entitySlot? spell.target = some source)
    (same : (w.held spell.hand).item = spell.holderItem)
    (found : w.registry.findHolder (w.held spell.hand) = some holder) :
    let drawn := w.registry.extract source (.units holder.freeCapacity) false
    spell.commit w = w.exchange spell.hand (holder.insert (.units drawn.1) false).2.stack
      spell.target drawn.2 := by
  intro drawn
  obtain ⟨present, -, -⟩ := MediaRegistry.findHolder_eq_some.mp found
  rw [← World.exchange_eq _ _ _ slot]
  simp only [commit, CastingEnv.entitySlot?, slot, CastingEnv.heldSlot?, present,
    Bool.false_eq_true, if_false, Option.filter_some, same, decide_true, if_true,
    CastingEnv.registry, found]
  rfl

/-- A recharge does nothing unless the target is alive with a stack and the hand still holds a
holder of the captured item. -/
theorem Recharge.commit_cases (spell : Recharge) (w : World) :
    spell.commit w = w ∨ ∃ source holder,
      w.entitySlot? spell.target = some source ∧
      (w.held spell.hand).item = spell.holderItem ∧
      w.registry.findHolder (w.held spell.hand) = some holder := by
  by_cases ready : ∃ source holder, w.entitySlot? spell.target = some source ∧
      (w.held spell.hand).item = spell.holderItem ∧
      w.registry.findHolder (w.held spell.hand) = some holder
  · exact .inr ready
  · refine .inl ?_
    simp only [commit]
    split
    · rfl
    · next source slot =>
        split
        · rfl
        · next held kept =>
            obtain ⟨taken, same⟩ := Option.filter_eq_some_iff.mp kept
            split
            · rfl
            · next holder found =>
                refine absurd ⟨source, holder, slot, ?_⟩ ready
                change (if (w.held spell.hand).isEmpty then none else some (w.held spell.hand)) =
                  some held at taken
                split at taken
                · cases taken
                · cases taken
                  exact ⟨of_decide_eq_true same, found⟩

theorem CraftBattery.commit_eq {spell : CraftBattery} {w : World} {source : ItemStack}
    (bottle : (w.held spell.hand).is .glassBottle = true)
    (single : (w.held spell.hand).count = 1)
    (slot : w.entitySlot? spell.target = some source) :
    let drawn := drain w.registry source false
    spell.commit w =
      w.exchange spell.hand (if drawn.1 > 0 then battery drawn.1 else w.held spell.hand)
        spell.target drawn.2 := by
  intro drawn
  rw [← World.exchange_eq _ _ _ slot]
  have held : (if drawn.1 > 0 then w.hold spell.hand (battery drawn.1) else w) =
      w.hold spell.hand (if drawn.1 > 0 then battery drawn.1 else w.held spell.hand) := by
    split
    · rfl
    · exact (w.hold_held spell.hand).symm
  rw [← held]
  simp only [commit, CastingEnv.heldItem, bottle, single, decide_true, Bool.and_true, if_true,
    CastingEnv.entitySlot?, slot]
  rfl

/-- No battery is made unless the hand holds one glass bottle and the target is alive with a
stack. -/
theorem CraftBattery.commit_cases (spell : CraftBattery) (w : World) :
    spell.commit w = w ∨ ∃ source,
      (w.held spell.hand).is .glassBottle = true ∧ (w.held spell.hand).count = 1 ∧
      w.entitySlot? spell.target = some source := by
  simp only [commit]
  split
  · next ready =>
      obtain ⟨bottle, single⟩ := Bool.and_eq_true_iff.mp ready
      split
      · exact .inl rfl
      · next source slot => exact .inr ⟨source, bottle, of_decide_eq_true single, slot⟩
  · exact .inl rfl

namespace CraftBattery

theorem drain_spent (r : MediaRegistry) (stack : ItemStack) (simulate : Bool) :
    stack.Spent (drain r stack simulate).2 := by
  unfold drain
  split
  · exact .refl stack
  · next holder found =>
      obtain ⟨-, -, rfl⟩ := MediaRegistry.findHolder_eq_some.mp found
      split
      · exact holder.withdraw_spent .unlimited simulate
      · exact .refl _

theorem worth_drain_le {r : MediaRegistry} {stack : ItemStack} (fits : r.Fits stack) :
    r.worth (drain r stack false).2 + (drain r stack false).1.toNat ≤ r.worth stack := by
  unfold drain
  split
  · exact Nat.le_refl _
  · next holder found =>
      split
      · exact MediaRegistry.worth_withdraw_le fits found .unlimited
      · exact Nat.le_refl _

end CraftBattery

end Spellcasting
