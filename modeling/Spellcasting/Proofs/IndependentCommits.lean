import Spellcasting.Proofs.Commits
import Spellcasting.Proofs.StockPrograms

/-! # Independent commits

A commit is told by its terms: what it goes by is the registry, the stack in its hand and the stack
that its target carries, and what it changes is that hand and that target. Two commits with
different hands and different targets never see what the other has done, so it does not matter
which of them comes first. That is so for registries of dust and batteries, whose holders go by
nothing but the stack.
-/

namespace Spellcasting

theorem Roster.edit_comm (r : Roster) {id other : EntityId} (different : id ≠ other)
    (first second : Edit) :
    (r.edit id first).edit other second = (r.edit other second).edit id first := by
  simp only [edit, List.map_map, mk.injEq]
  apply List.map_congr_left
  intro e _
  by_cases one : e.ref.id = id <;> by_cases two : e.ref.id = other <;>
    simp [Edit.apply, one, two, different, different.symm]

namespace World

/-- What a commit makes of the registry, the stack in its hand and the stack of its target: the
stack for the hand and what remains to the target, or nothing. -/
abbrev Terms := MediaRegistry → ItemStack → Option ItemStack → Option (ItemStack × ItemStack)

/-- Makes the exchange on which the terms settle. -/
def trade (w : World) (hand : Hand) (target : EntityId) (terms : Terms) : World :=
  match terms w.registry (w.held hand) (w.entitySlot? target) with
  | none => w
  | some (stack, rest) => w.exchange hand stack target rest

section

variable (w : World) {hand other : Hand} {target id : EntityId} (first second : Terms)

theorem exchange_comm (hands : hand ≠ other) (targets : target ≠ id)
    (stack rest swapped left : ItemStack) :
    (w.exchange hand stack target rest).exchange other swapped id left =
      (w.exchange other swapped id left).exchange hand stack target rest := by
  simp only [exchange]
  rw [Roster.edit_comm w.roster targets]
  cases hand <;> cases other
  · exact absurd rfl hands
  · rfl
  · rfl
  · exact absurd rfl hands

/-- A trade at another hand and another target is out of sight. -/
theorem trade_unseen (hands : hand ≠ other) (targets : target ≠ id) :
    second (w.trade hand target first).registry ((w.trade hand target first).held other)
        ((w.trade hand target first).entitySlot? id) =
      second w.registry (w.held other) (w.entitySlot? id) := by
  cases settled : first w.registry (w.held hand) (w.entitySlot? target) with
  | none => simp only [trade, settled]
  | some made =>
      simp only [trade, settled, registry_exchange, held_exchange, hands.symm, if_false,
        entitySlot?_exchange_other targets.symm]

theorem trade_comm (hands : hand ≠ other) (targets : target ≠ id) :
    (w.trade hand target first).trade other id second =
      (w.trade other id second).trade hand target first := by
  have later := trade_unseen w first second hands targets
  have sooner := trade_unseen w second first hands.symm targets.symm
  rw [trade, later, trade.eq_def (w.trade other id second), sooner]
  -- each trade is settled as it would be alone
  cases one : first w.registry (w.held hand) (w.entitySlot? target) <;>
    cases two : second w.registry (w.held other) (w.entitySlot? id) <;>
    simp only [trade, one, two]
  exact exchange_comm w hands targets ..

end

end World

namespace Recharge

/-- The terms of a recharge. -/
def terms (spell : Recharge) : World.Terms := fun registry held slot =>
  match slot, registry.findHolder held with
  | some source, some holder =>
    if held.item = spell.holderItem then
      let drawn := registry.extract source (.units holder.freeCapacity) false
      some ((holder.insert (.units drawn.1) false).2.stack, drawn.2)
    else none
  | _, _ => none

theorem commit_eq_trade (spell : Recharge) (w : World) :
    spell.commit w = w.trade spell.hand spell.target spell.terms := by
  by_cases ready : ∃ source holder, w.entitySlot? spell.target = some source ∧
      (w.held spell.hand).item = spell.holderItem ∧
      w.registry.findHolder (w.held spell.hand) = some holder
  · obtain ⟨source, holder, slot, same, found⟩ := ready
    rw [commit_eq slot same found]
    simp only [World.trade, terms, slot, same, found, if_true]
  · have refused : spell.terms w.registry (w.held spell.hand) (w.entitySlot? spell.target) =
        none := by
      unfold terms
      split
      · next source holder slot found =>
          exact if_neg fun same => ready ⟨source, holder, slot, same, found⟩
      · rfl
    rw [(spell.commit_cases w).resolve_right ready, World.trade, refused]

end Recharge

namespace CraftBattery

/-- The terms of a battery. -/
def terms : World.Terms := fun registry held slot =>
  if held.is .glassBottle && held.count = 1 then
    slot.map fun source =>
      let drawn := drain registry source false
      (if drawn.1 > 0 then battery drawn.1 else held, drawn.2)
  else none

theorem commit_eq_trade (spell : CraftBattery) (w : World) :
    spell.commit w = w.trade spell.hand spell.target terms := by
  by_cases ready : ∃ source, (w.held spell.hand).is .glassBottle = true ∧
      (w.held spell.hand).count = 1 ∧ w.entitySlot? spell.target = some source
  · obtain ⟨source, bottle, single, slot⟩ := ready
    rw [commit_eq bottle single slot]
    simp only [World.trade, terms, bottle, single, slot, decide_true, Bool.and_self, if_true,
      Option.map_some]
  · have refused : terms w.registry (w.held spell.hand) (w.entitySlot? spell.target) = none := by
      unfold terms
      split
      · next held =>
          obtain ⟨bottle, single⟩ := Bool.and_eq_true_iff.mp held
          refine Option.map_eq_none_iff.mpr (Option.eq_none_iff_forall_ne_some.mpr ?_)
          exact fun source slot => ready ⟨source, bottle, of_decide_eq_true single, slot⟩
      · rfl
    rw [(spell.commit_cases w).resolve_right ready, World.trade, refused]

end CraftBattery

/-- The hand that a stock spell works with and the entity that it drains. -/
inductive Spell.WorksAt : Spell World → Hand → EntityId → Prop where
  | recharge (spell : Recharge) : WorksAt (.recharge spell) spell.hand spell.target
  | craftBattery (spell : CraftBattery) : WorksAt (.craftBattery spell) spell.hand spell.target

/-- A stock spell trades between its hand and its target. -/
theorem Spell.WorksAt.exists_terms {spell : Spell World} {hand : Hand} {target : EntityId}
    (works : spell.WorksAt hand target) :
    ∃ terms, ∀ w, spell.commit w = w.trade hand target terms := by
  cases works with
  | recharge spell => exact ⟨spell.terms, spell.commit_eq_trade⟩
  | craftBattery spell => exact ⟨CraftBattery.terms, spell.commit_eq_trade⟩

/-- Stock spells with different hands and different targets may be committed in either order, in any
world with any registry of dust and batteries, and whatever each of them comes to. -/
theorem independent_commits_commute (w : World) {first second : Spell World} {hand other : Hand}
    {target id : EntityId} (one : first.WorksAt hand target) (two : second.WorksAt other id)
    (targets : target ≠ id) (hands : hand ≠ other) :
    second.commit (first.commit w) = first.commit (second.commit w) := by
  obtain ⟨terms, trades⟩ := one.exists_terms
  obtain ⟨conditions, exchanges⟩ := two.exists_terms
  rw [trades, exchanges, trades, exchanges]
  exact World.trade_comm w _ _ hands targets

/-- At the workbench the battery may be recharged from the dust before the shards are bottled or
after that. -/
theorem workbench_commits_commute :
    let recharge : Spell World := .recharge ⟨.ofNat 1, .off, .battery⟩
    let bottle : Spell World := .craftBattery ⟨.ofNat 2, .main⟩
    let w := bottle.commit (recharge.commit World.workbench)
    recharge.WorksAt .off (.ofNat 1) ∧ bottle.WorksAt .main (.ofNat 2) ∧
      EntityId.ofNat 1 ≠ .ofNat 2 ∧ Hand.off ≠ .main ∧
      w = recharge.commit (bottle.commit World.workbench) ∧
      w.offHand.media = 15000 ∧ w.mainHand = CraftBattery.battery 100000 := by
  intro recharge bottle w
  have one : recharge.WorksAt .off (.ofNat 1) := .recharge ⟨.ofNat 1, .off, .battery⟩
  have two : bottle.WorksAt .main (.ofNat 2) := .craftBattery ⟨.ofNat 2, .main⟩
  have targets : EntityId.ofNat 1 ≠ .ofNat 2 := by decide
  have hands : Hand.off ≠ .main := by decide
  have filled : w.offHand.media = 15000 := by decide +kernel
  have made : w.mainHand = CraftBattery.battery 100000 := by decide +kernel
  exact ⟨one, two, targets, hands,
    independent_commits_commute World.workbench one two targets hands, filled, made⟩

end Spellcasting
