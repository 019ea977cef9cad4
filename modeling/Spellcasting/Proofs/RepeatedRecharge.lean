import Mathlib.Algebra.BigOperators.Group.Finset.Basic
import Spellcasting.Proofs.FullEffect

/-! # Many recharges in one batch

All recharges of a batch were answered in the same world, before any of them was committed; so they
all fill the same hand. Whatever their order, each target gives once: after its first recharge
either it has nothing left or the holder is full, and `Filling` keeps to that. The level they reach
is the holder's capacity or the sum of what the targets had, whichever is less.
-/

namespace Spellcasting

namespace World

variable {w : World} {source : ItemStack} {id : EntityId}

/-- What can be drawn in a world from the living stack of an entity. -/
def withdrawable (w : World) (id : EntityId) : Nat :=
  match w.entitySlot? id with
  | none => 0
  | some source => (w.registry.withdrawable source).toNat

theorem withdrawable_of_slot (slot : w.entitySlot? id = some source) :
    w.withdrawable id = (w.registry.withdrawable source).toNat := by
  simp only [withdrawable, slot]

end World

namespace Recharge

/-- A recharge that a world has answered. -/
def AnsweredIn (w : World) (spell : Recharge) : Prop :=
  ∃ args spray, evaluate args w = .ok (some (spell, spray))

/-- Commits recharges one after the other. -/
def commitAll (spells : List Recharge) (w : World) : World :=
  spells.foldl (fun w spell => spell.commit w) w

/-- A recharge that fills a hand from a target that the world has. -/
structure Fills (w : World) (hand : Hand) (spell : Recharge) : Prop where
  fills : spell.hand = hand
  item : spell.holderItem = (w.held hand).item
  carried : ∃ source, w.entitySlot? spell.target = some source

theorem AnsweredIn.fills {w : World} {spell : Recharge} (answered : spell.AnsweredIn w) :
    let hand := (CastingEnv.heldItemFor w (hasRoom w.registry)).hand
    spell.Fills w hand ∧ ∃ holder, rechargeable? w.registry (w.held hand) = some holder ∧
      holder.freeCapacity ≠ 0 := by
  intro hand
  obtain ⟨args, spray, evaluated⟩ := answered
  obtain ⟨ref, state, holder, checked, target, -, selected, item, captured, room⟩ :=
    evaluate_some evaluated
  have same : spell.hand = hand := selected
  obtain ⟨source, slot, -⟩ := checked.slot
  rw [← same]
  exact ⟨⟨rfl, item, source, target ▸ slot⟩, holder, captured, room⟩

/-- How far some recharges have filled a hand that have used some targets: the hand holds what the
targets had as far as there was room, and each of them has nothing left unless the hand is full. -/
structure Filling (w : World) (hand : Hand) (holder : MediaHolder) (used : Finset EntityId)
    (now : World) : Prop where
  registry : now.registry = w.registry
  item : now.held hand = { w.held hand with media := (now.held hand).media }
  level : (now.held hand).media.toNat =
    min holder.maxMedia.toNat ((w.held hand).media.toNat + ∑ id ∈ used, w.withdrawable id)
  untouched : ∀ id, id ∉ used → now.roster.find? id = w.roster.find? id
  spent : ∀ id ∈ used, ∀ source, now.entitySlot? id = some source → source.isEmpty = false ∧
    (w.registry.withdrawable source = 0 ∨ holder.maxMedia.toNat ≤ (now.held hand).media.toNat)

namespace Filling

variable {w now : World} {hand : Hand} {holder : MediaHolder} {used : Finset EntityId}
  {spell : Recharge}

theorem current (h : Filling w hand holder used now)
    (selected : rechargeable? w.registry (w.held hand) = some holder) :
    ∃ holder', now.registry.findHolder (now.held hand) = some holder' ∧
      holder'.freeCapacity.toNat = holder.maxMedia.toNat - (now.held hand).media.toNat := by
  obtain ⟨found, recharges⟩ := Option.filter_eq_some_iff.mp selected
  obtain ⟨present, capability, -⟩ := MediaRegistry.findHolder_eq_some.mp found
  let holder' : MediaHolder := ⟨now.held hand, holder.capability⟩
  have still : w.registry.findHolder (now.held hand) = some holder' := by
    apply MediaRegistry.findHolder_eq_some.mpr
    rw [h.item]
    exact ⟨present, capability, h.item⟩
  have capacity : holder'.maxMedia = holder.maxMedia := by
    rw [h.item] at still
    exact ItemStack.maxMedia_of_media found still
  refine ⟨holder', h.registry ▸ still, ?_⟩
  have recharges' : holder'.canRecharge = true := recharges
  rw [MediaHolder.toNat_freeCapacity recharges', capacity]

/-- A target gives once: another recharge from it changes nothing. -/
theorem commit_again (h : Filling w hand holder used now)
    (selected : rechargeable? w.registry (w.held hand) = some holder)
    (filled : spell.hand = hand) (again : spell.target ∈ used) : spell.commit now = now := by
  subst filled
  rcases spell.commit_cases now with idle | ⟨source, holder', slot, same, found⟩
  · exact idle
  · obtain ⟨present, exhausted⟩ := h.spent _ again source slot
    obtain ⟨_, foundAgain, room⟩ := h.current selected
    obtain rfl := Option.some.inj (found.symm.trans foundAgain)
    -- either side of the transfer is exhausted
    have nothing : moved now.registry source holder' = 0 := by
      apply UInt64.toNat_inj.mp
      rw [toNat_moved, room, h.registry, UInt64.toNat_zero]
      rcases exhausted with spent | full
      · rw [spent, UInt64.toNat_zero]
        omega
      · omega
    have rest : (now.registry.extract source (.units holder'.freeCapacity) false).2 = source :=
      MediaRegistry.extract_nothing ((now.registry.extract_fst source _).trans nothing)
    rw [commit_eq_moved slot same found, nothing, rest, UInt64.add_zero]
    exact World.exchange_self spell.hand slot present

/-- A target that has not given yet gives what it has, as far as there is room. -/
theorem commit_fresh (h : Filling w hand holder used now) (fits : w.Fits)
    (selected : rechargeable? w.registry (w.held hand) = some holder)
    (fills : spell.Fills w hand) (fresh : spell.target ∉ used) :
    Filling w hand holder (insert spell.target used) (spell.commit now) := by
  obtain ⟨rfl, item, source, slot⟩ := fills
  obtain ⟨holder', found, room⟩ := h.current selected
  have same : (now.held spell.hand).item = spell.holderItem := by
    rw [h.item, item]
  have slot' : now.entitySlot? spell.target = some source := by
    simpa only [World.entitySlot?, h.untouched _ fresh] using slot
  have whole := toNat_media_moved now.registry source holder'
  rw [(MediaRegistry.findHolder_eq_some.mp found).2.2, room, h.registry] at whole
  have gives := World.withdrawable_of_slot slot
  have level := h.level
  rw [commit_eq_moved slot' same found, h.registry]
  refine ⟨?_, ?_, ?_, fun id unused => ?_, fun id member other carries => ?_⟩
  · rw [World.registry_exchange, h.registry]
  · rw [World.held_exchange, if_pos rfl, h.item]
  · rw [World.held_exchange, if_pos rfl, Finset.sum_insert fresh, gives, whole]
    omega
  · rw [Finset.mem_insert, not_or] at unused
    rw [World.find?_exchange, if_neg unused.1, h.untouched id unused.2]
  · rw [World.held_exchange, if_pos rfl, whole]
    -- only the new target has to be looked at: the hand never gets emptier for the others
    by_cases target : id = spell.target
    · subst target
      rw [World.entitySlot?_exchange_target slot'] at carries
      split at carries
      · cases carries
      · next present =>
          cases carries
          refine ⟨by simpa using present, ?_⟩
          by_cases short : (w.registry.withdrawable source).toNat ≤ holder'.freeCapacity.toNat
          · exact .inl (MediaRegistry.extract_short (fits.slot slot) short)
          · exact .inr (by omega)
    · rw [World.entitySlot?_exchange_other target] at carries
      have old : id ∈ used := (Finset.mem_insert.mp member).resolve_left target
      obtain ⟨present, exhausted⟩ := h.spent id old other carries
      exact ⟨present, exhausted.imp_right fun full => by omega⟩

theorem start (selected : rechargeable? w.registry (w.held hand) = some holder)
    (room : holder.freeCapacity ≠ 0) : Filling w hand holder ∅ w := by
  obtain ⟨found, recharges⟩ := Option.filter_eq_some_iff.mp selected
  have free := MediaHolder.toNat_freeCapacity recharges
  rw [(MediaRegistry.findHolder_eq_some.mp found).2.2] at free
  have roomy : holder.freeCapacity.toNat ≠ 0 := fun zero => room (UInt64.toNat_inj.mp zero)
  refine ⟨rfl, rfl, ?_, fun _ _ => rfl, fun id member => absurd member (Finset.notMem_empty id)⟩
  rw [Finset.sum_empty]
  omega

theorem commitAll (h : Filling w hand holder used now) (fits : w.Fits)
    (selected : rechargeable? w.registry (w.held hand) = some holder) {spells : List Recharge}
    (fills : ∀ spell ∈ spells, spell.Fills w hand) :
    Filling w hand holder ((spells.map target).toFinset ∪ used) (commitAll spells now) := by
  -- a repeated target leaves both the set and the world as they are
  induction spells generalizing used now with
  | nil =>
      rw [List.map_nil, List.toFinset_nil, Finset.empty_union]
      exact h
  | cons spell rest ih =>
      have first := fills spell List.mem_cons_self
      have later : ∀ spell ∈ rest, spell.Fills w hand :=
        fun other member => fills other (List.mem_cons_of_mem _ member)
      rw [List.map_cons, List.toFinset_cons, Finset.insert_union, ← Finset.union_insert]
      change Filling w hand holder _ (Recharge.commitAll rest (spell.commit now))
      by_cases again : spell.target ∈ used
      · rw [h.commit_again selected first.fills again, Finset.insert_eq_of_mem again]
        exact ih h later
      · exact ih (h.commit_fresh fits selected first again) later

end Filling

end Recharge

/-- Recharges that one world has answered fill the same hand to the same level in whatever order
they are committed: to its capacity, or to what it held and all that the distinct targets had. One
that is committed again for the same target changes nothing. -/
theorem recharges_fill_in_any_order {w : World} (fits : w.Fits) {spells : List Recharge}
    (nonempty : spells ≠ []) (answered : ∀ spell ∈ spells, spell.AnsweredIn w) :
    ∃ hand holder, w.registry.findHolder (w.held hand) = some holder ∧
      (∀ spell ∈ spells, spell.hand = hand ∧ spell.holderItem = (w.held hand).item) ∧
      ((Recharge.commitAll spells w).held hand).media.toNat = min holder.maxMedia.toNat
        ((w.held hand).media.toNat +
          ∑ id ∈ (spells.map Recharge.target).toFinset, w.withdrawable id) ∧
      (∀ before spell later, spells = before ++ spell :: later →
        spell.target ∈ before.map Recharge.target →
        spell.commit (Recharge.commitAll before w) = Recharge.commitAll before w) ∧
      ∀ others : List Recharge, (∀ spell ∈ others, spell.AnsweredIn w) →
        (∀ id, id ∈ others.map Recharge.target ↔ id ∈ spells.map Recharge.target) →
        ((Recharge.commitAll others w).held hand).media =
          ((Recharge.commitAll spells w).held hand).media := by
  let hand := (CastingEnv.heldItemFor w (Recharge.hasRoom w.registry)).hand
  obtain ⟨first, member⟩ := List.exists_mem_of_ne_nil spells nonempty
  obtain ⟨-, holder, selected, room⟩ := (answered first member).fills
  have filling {list : List Recharge} (each : ∀ spell ∈ list, spell.AnsweredIn w) :
      Recharge.Filling w hand holder (list.map Recharge.target).toFinset
        (Recharge.commitAll list w) := by
    have all := (Recharge.Filling.start selected room).commitAll fits selected
      fun spell asked => (each spell asked).fills.1
    rwa [Finset.union_empty] at all
  refine ⟨hand, holder, (Option.filter_eq_some_iff.mp selected).1, fun spell asked => ?_,
    (filling answered).level, ?_, ?_⟩
  · have fills := (answered spell asked).fills.1
    exact ⟨fills.fills, fills.item⟩
  · rintro before spell later rfl again
    have each : ∀ other ∈ before, other.AnsweredIn w :=
      fun other asked => answered other (List.mem_append_left _ asked)
    have fills := (answered spell (by simp)).fills.1
    exact (filling each).commit_again selected fills.fills (List.mem_toFinset.mpr again)
  · intro others each same
    have targets : (others.map Recharge.target).toFinset = (spells.map Recharge.target).toFinset := by
      ext id
      rw [List.mem_toFinset, List.mem_toFinset, same id]
    apply UInt64.toNat_inj.mp
    rw [(filling each).level, (filling answered).level, targets]

/-- The dust, the shards and the dust again fill the battery of the workbench. -/
theorem workbench_recharges_fill_the_battery :
    let dust : Recharge := ⟨.ofNat 1, .off, .battery⟩
    let shards : Recharge := ⟨.ofNat 2, .off, .battery⟩
    let spells := [dust, shards, dust]
    World.workbench.Fits ∧ (∀ spell ∈ spells, spell.AnsweredIn World.workbench) ∧
    ∃ hand holder, World.workbench.registry.findHolder (World.workbench.held hand) = some holder ∧
      ((Recharge.commitAll spells World.workbench).held hand).media.toNat =
        min holder.maxMedia.toNat ((World.workbench.held hand).media.toNat +
          ∑ id ∈ (spells.map Recharge.target).toFinset, World.workbench.withdrawable id) ∧
      dust.commit (Recharge.commitAll [dust, shards] World.workbench) =
        Recharge.commitAll [dust, shards] World.workbench := by
  intro dust shards spells
  have fits : World.workbench.Fits := World.Countable.fits (by decide +kernel)
  have first : dust.AnsweredIn World.workbench :=
    ⟨[.entity ⟨.ofNat 1, .item, "Dust"⟩], exists_answer (by decide +kernel)⟩
  have second : shards.AnsweredIn World.workbench :=
    ⟨[.entity ⟨.ofNat 2, .item, "Shards"⟩], exists_answer (by decide +kernel)⟩
  have answered : ∀ spell ∈ spells, spell.AnsweredIn World.workbench := by
    intro spell asked
    simp only [spells, List.mem_cons, List.not_mem_nil, or_false] at asked
    rcases asked with rfl | rfl | rfl
    · exact first
    · exact second
    · exact first
  obtain ⟨hand, holder, found, -, level, again, -⟩ :=
    recharges_fill_in_any_order fits (List.cons_ne_nil dust [shards, dust]) answered
  exact ⟨fits, answered, hand, holder, found, level,
    again [dust, shards] dust [] rfl List.mem_cons_self⟩

end Spellcasting
