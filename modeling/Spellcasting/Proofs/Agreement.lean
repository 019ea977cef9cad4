import Spellcasting.Proofs.References

/-! # Casts see only what they refer to

`AgreeOn` relates worlds that look the same from the caster and from some entities. A cast that
refers to no other entities is answered alike in both, and every commit keeps them related. So it
can neither learn of anyone else nor, as the references show, change them.
-/

namespace Spellcasting

namespace MediaRegistry

variable {r q : MediaRegistry}

theorem findHolder_congr (same : ∀ item, r.capability? item = q.capability? item) :
    r.findHolder = q.findHolder := by
  funext stack
  simp only [findHolder, same]

theorem extract_congr (same : r.findHolder = q.findHolder) : r.extract = q.extract := by
  funext stack amount simulate
  simp only [extract, same]

theorem isMediaItem_congr (same : r.findHolder = q.findHolder) :
    r.isMediaItem = q.isMediaItem := by
  funext stack
  simp only [isMediaItem, same]

theorem rechargeable?_congr (same : r.findHolder = q.findHolder) :
    Recharge.rechargeable? r = Recharge.rechargeable? q := by
  funext stack
  simp only [Recharge.rechargeable?, same]

theorem hasRoom_congr (same : r.findHolder = q.findHolder) :
    Recharge.hasRoom r = Recharge.hasRoom q := by
  funext stack
  simp only [Recharge.hasRoom, rechargeable?_congr same]

theorem drain_congr (same : r.findHolder = q.findHolder) :
    CraftBattery.drain r = CraftBattery.drain q := by
  funext stack simulate
  simp only [CraftBattery.drain, same]

end MediaRegistry

namespace World

/-- Worlds that look the same from the caster and from the entities of some identities. -/
structure AgreeOn (ids : List EntityId) (w v : World) : Prop where
  casterPosition : w.casterPosition = v.casterPosition
  ambitRadius : w.ambitRadius = v.ambitRadius
  castingHand : w.castingHand = v.castingHand
  held : ∀ hand, w.held hand = v.held hand
  casterMedia : w.casterMedia = v.casterMedia
  registry : ∀ item, w.registry.capability? item = v.registry.capability? item
  entities : ∀ id ∈ ids, w.roster.find? id = v.roster.find? id

namespace AgreeOn

variable {ids : List EntityId} {w v : World}

theorem symm (agree : w.AgreeOn ids v) : v.AgreeOn ids w where
  casterPosition := agree.casterPosition.symm
  ambitRadius := agree.ambitRadius.symm
  castingHand := agree.castingHand.symm
  held hand := (agree.held hand).symm
  casterMedia := agree.casterMedia.symm
  registry item := (agree.registry item).symm
  entities id known := (agree.entities id known).symm

theorem findHolder (agree : w.AgreeOn ids v) : w.registry.findHolder = v.registry.findHolder :=
  MediaRegistry.findHolder_congr agree.registry

theorem slot (agree : w.AgreeOn ids v) {id : EntityId} (known : id ∈ ids) :
    w.entitySlot? id = v.entitySlot? id := by
  simp only [World.entitySlot?, agree.entities id known]

theorem inRange (agree : w.AgreeOn ids v) : CastingEnv.inRange w = CastingEnv.inRange v := by
  have position : CastingEnv.casterPosition w = CastingEnv.casterPosition v := agree.casterPosition
  have radius : CastingEnv.ambitRadius w = CastingEnv.ambitRadius v := agree.ambitRadius
  funext place
  unfold CastingEnv.inRange
  rw [position, radius]

theorem reachable (agree : w.AgreeOn ids v) {ref : EntityRef} (known : ref.id ∈ ids) :
    CastingEnv.reachable w ref = CastingEnv.reachable v ref := by
  have same : CastingEnv.entity? w ref.id = CastingEnv.entity? v ref.id :=
    agree.entities ref.id known
  have near : CastingEnv.entityInRange w ref = CastingEnv.entityInRange v ref := by
    unfold CastingEnv.entityInRange
    rw [same, agree.inRange]
  have accepted : CastingEnv.assertEntityInRange w ref = CastingEnv.assertEntityInRange v ref := by
    unfold CastingEnv.assertEntityInRange
    rw [near]
  unfold CastingEnv.reachable
  rw [same, accepted]

theorem heldItemFor (agree : w.AgreeOn ids v) (accept : ItemStack → Bool) :
    CastingEnv.heldItemFor w accept = CastingEnv.heldItemFor v accept := by
  have hand : CastingEnv.castingHand w = CastingEnv.castingHand v := agree.castingHand
  have held : CastingEnv.heldItem w = CastingEnv.heldItem v := funext agree.held
  simp only [CastingEnv.heldItemFor, hand, held]

end AgreeOn

end World

theorem bind_congr_ok {ε α β : Type} {first : Except ε α} {next other : α → Except ε β}
    (same : ∀ value, first = .ok value → next value = other value) :
    first >>= next = first >>= other := by
  cases first with
  | error e => rfl
  | ok value => exact same value rfl

section

variable {ids : List EntityId} {w v : World} {args : List Iota}

theorem Recharge.evaluate_agrees (agree : w.AgreeOn ids v) (known : Iota.idsAll args ⊆ ids) :
    evaluate args w = evaluate args v := by
  refine bind_congr_ok fun ref argument => ?_
  have reach := agree.reachable (known (Arguments.itemEntity_ids argument))
  have room : hasRoom (CastingEnv.registry w) = hasRoom (CastingEnv.registry v) :=
    MediaRegistry.hasRoom_congr agree.findHolder
  have holders : rechargeable? (CastingEnv.registry w) = rechargeable? (CastingEnv.registry v) :=
    MediaRegistry.rechargeable?_congr agree.findHolder
  have media : (CastingEnv.registry w).isMediaItem = (CastingEnv.registry v).isMediaItem :=
    MediaRegistry.isMediaItem_congr agree.findHolder
  simp only [reach, room, holders, media, agree.heldItemFor]

theorem CraftBattery.evaluate_agrees (agree : w.AgreeOn ids v) (known : Iota.idsAll args ⊆ ids) :
    evaluate args w = evaluate args v := by
  refine bind_congr_ok fun ref argument => ?_
  have reach := agree.reachable (known (Arguments.itemEntity_ids argument))
  have drains : drain (CastingEnv.registry w) = drain (CastingEnv.registry v) :=
    MediaRegistry.drain_congr agree.findHolder
  have media : (CastingEnv.registry w).isMediaItem = (CastingEnv.registry v).isMediaItem :=
    MediaRegistry.isMediaItem_congr agree.findHolder
  simp only [reach, drains, media, agree.heldItemFor]

namespace StockOperator

theorem entityPosition_agrees {args : Arguments} (agree : w.AgreeOn ids v)
    (known : Iota.idsAll args.values ⊆ ids) : entityPosition args w = entityPosition args v := by
  refine bind_congr_ok fun ref argument => ?_
  rw [agree.reachable (known (Arguments.entity_ids argument))]

/-- A stock operator cannot tell worlds apart that agree on what its arguments refer to. -/
theorem execute_agrees (op : StockOperator) (agree : w.AgreeOn ids v)
    (known : Iota.idsAll args ⊆ ids) :
    op.adapter.execute args w = op.adapter.execute args v := by
  cases op with
  | entityPos =>
      have same : entityPosition ⟨args, 1⟩ w = entityPosition ⟨args, 1⟩ v :=
        entityPosition_agrees agree known
      simp only [adapter, Adapter.execute, same]
  | recharge =>
      have same := Recharge.evaluate_agrees agree known
      simp only [adapter, Adapter.execute, same]
  | craftBattery =>
      have same := CraftBattery.evaluate_agrees agree known
      simp only [adapter, Adapter.execute, same]
  | _ => rfl

end StockOperator

end

namespace World.AgreeOn

variable {ids : List EntityId} {w v : World}

theorem exchange (agree : w.AgreeOn ids v) (hand : Hand) (stack : ItemStack) (target : EntityId)
    (rest : ItemStack) :
    (w.exchange hand stack target rest).AgreeOn ids (v.exchange hand stack target rest) := by
  constructor
  · simp only [casterPosition_exchange, agree.casterPosition]
  · simp only [ambitRadius_exchange, agree.ambitRadius]
  · simp only [castingHand_exchange, agree.castingHand]
  · intro other
    simp only [held_exchange, agree.held]
  · simp only [casterMedia_exchange, agree.casterMedia]
  · intro item
    simp only [registry_exchange, agree.registry]
  · intro id known
    simp only [find?_exchange, agree.entities id known]

end World.AgreeOn

section

variable {ids : List EntityId} {w v : World}

theorem Recharge.commit_agrees_of_slot {spell : Recharge} {source : ItemStack}
    {holder : MediaHolder} (agree : w.AgreeOn ids v) (known : spell.target ∈ ids)
    (slot : w.entitySlot? spell.target = some source)
    (same : (w.held spell.hand).item = spell.holderItem)
    (found : w.registry.findHolder (w.held spell.hand) = some holder) :
    (spell.commit w).AgreeOn ids (spell.commit v) := by
  rw [commit_eq slot same found]
  rw [agree.slot known] at slot
  rw [agree.held] at same found
  rw [agree.findHolder] at found
  rw [commit_eq slot same found, MediaRegistry.extract_congr agree.findHolder]
  exact agree.exchange ..

theorem Recharge.commit_agrees {spell : Recharge} (agree : w.AgreeOn ids v)
    (known : spell.target ∈ ids) : (spell.commit w).AgreeOn ids (spell.commit v) := by
  rcases spell.commit_cases w with idle | ⟨source, holder, slot, same, found⟩
  · rcases spell.commit_cases v with still | ⟨source, holder, slot, same, found⟩
    · rw [idle, still]
      exact agree
    · exact (commit_agrees_of_slot agree.symm known slot same found).symm
  · exact commit_agrees_of_slot agree known slot same found

theorem CraftBattery.commit_agrees_of_slot {spell : CraftBattery} {source : ItemStack}
    (agree : w.AgreeOn ids v) (known : spell.target ∈ ids)
    (bottle : (w.held spell.hand).is .glassBottle = true) (single : (w.held spell.hand).count = 1)
    (slot : w.entitySlot? spell.target = some source) :
    (spell.commit w).AgreeOn ids (spell.commit v) := by
  rw [commit_eq bottle single slot]
  rw [agree.slot known] at slot
  rw [agree.held] at bottle single
  rw [commit_eq bottle single slot, MediaRegistry.drain_congr agree.findHolder, agree.held]
  exact agree.exchange ..

theorem CraftBattery.commit_agrees {spell : CraftBattery} (agree : w.AgreeOn ids v)
    (known : spell.target ∈ ids) : (spell.commit w).AgreeOn ids (spell.commit v) := by
  rcases spell.commit_cases w with idle | ⟨source, bottle, single, slot⟩
  · rcases spell.commit_cases v with still | ⟨source, bottle, single, slot⟩
    · rw [idle, still]
      exact agree
    · exact (commit_agrees_of_slot agree.symm known bottle single slot).symm
  · exact commit_agrees_of_slot agree known bottle single slot

namespace Spell

theorem Within.commit_agrees {spell : Spell World} (within : spell.Within ids)
    (agree : w.AgreeOn ids v) : (spell.commit w).AgreeOn ids (spell.commit v) := by
  cases within with
  | recharge known => exact Recharge.commit_agrees agree known
  | craftBattery known => exact CraftBattery.commit_agrees agree known

theorem commitAll_agrees {spells : List (Spell World)}
    (within : ∀ spell ∈ spells, spell.Within ids) (agree : w.AgreeOn ids v) :
    (spells.foldl (fun w spell => spell.commit w) w).AgreeOn ids
      (spells.foldl (fun w spell => spell.commit w) v) := by
  apply List.foldl_rel agree
  intro spell asked now now' still
  exact (within spell asked).commit_agrees still

end Spell

end

namespace CastingState

variable {ids : List EntityId} {w v : World} {s : CastingState}

theorem step_agrees (instruction : Instruction StockOperator) (agree : w.AgreeOn ids v)
    (known : Iota.idsAll s.stack ⊆ ids) :
    s.step (instruction.map StockOperator.toOperator) w =
      s.step (instruction.map StockOperator.toOperator) v := by
  cases instruction with
  | literal iota => rfl
  | operator op =>
      have operated : op.toOperator.operate s.stack w = op.toOperator.operate s.stack v := by
        change op.adapter.operate s.stack w = op.adapter.operate s.stack v
        rcases Nat.lt_or_ge s.stack.length (op.adapter : Adapter World).argc with few | enough
        · rw [Adapter.operate_short few, Adapter.operate_short few]
        · obtain ⟨rest, args, whole, count⟩ := exists_top enough
          rw [whole, Iota.idsAll_append] at known
          rw [whole, Adapter.operate_append count, Adapter.operate_append count,
            op.execute_agrees agree (List.append_subset.mp known).2]
      simp only [Instruction.map, step, evaluate, operated]

theorem evaluateFrom_agrees {steps : List (Instruction StockOperator)} (agree : w.AgreeOn ids v)
    (known : s.references steps ⊆ ids) (index : Nat) (pending : Pending World) :
    s.evaluateFrom w index pending (StockOperator.program steps) =
      s.evaluateFrom v index pending (StockOperator.program steps) := by
  induction steps generalizing s index pending with
  | nil => rfl
  | cons instruction rest ih =>
      obtain ⟨known, literals⟩ := List.append_subset.mp known
      obtain ⟨brought, later⟩ := List.append_subset.mp literals
      change s.evaluateFrom w index pending (instruction.map _ :: StockOperator.program rest) =
        s.evaluateFrom v index pending (instruction.map _ :: StockOperator.program rest)
      simp only [evaluateFrom, ← step_agrees instruction agree known]
      split
      · rfl
      · next taken =>
          have next := (step_keeps known brought taken).1
          exact ih (List.append_subset.mpr ⟨next, later⟩) _ _

theorem pay_agrees (agree : w.AgreeOn ids v) (limits : Limits) (price : Media) :
    ∃ result paid paid', pay limits price w = (result, paid) ∧
      pay limits price v = (result, paid') ∧ paid.AgreeOn ids paid' := by
  rw [pay_eq, pay_eq, agree.casterMedia]
  split
  · dsimp only
    split
    · exact ⟨_, _, _, rfl, rfl, agree⟩
    · exact ⟨_, _, _, rfl, rfl, { agree with casterMedia := rfl }⟩
  · exact ⟨_, _, _, rfl, rfl, agree⟩

/-- A cast in worlds that agree ends alike and leaves them in agreement. -/
theorem castBatch_agrees {steps : List (Instruction StockOperator)}
    (agree : w.AgreeOn (s.references steps) v) :
    let inW := s.castBatch (StockOperator.program steps) w
    let inV := s.castBatch (StockOperator.program steps) v
    inW.2.2 = inV.2.2 ∧ inW.1 = inV.1 ∧ inW.2.1.AgreeOn (s.references steps) inV.2.1 := by
  have evaluated : s.resetBudget.evaluateAll (StockOperator.program steps) w =
      s.resetBudget.evaluateAll (StockOperator.program steps) v :=
    evaluateFrom_agrees (s := s.resetBudget) agree (List.Subset.refl _) 0 .none
  unfold castBatch
  rw [← evaluated]
  split
  · exact ⟨rfl, rfl, agree⟩
  · next after pending run =>
      obtain ⟨effects, ran, rfl⟩ := evaluateFrom_ok run
      obtain ⟨-, within⟩ := ran.keeps (List.Subset.refl _)
      obtain ⟨mishap | drawn, paid, paid', paying, paying', still⟩ :=
        pay_agrees agree s.limits (Pending.none.absorb effects).media
      · rw [paying, paying']
        exact ⟨rfl, rfl, still⟩
      · rw [paying, paying']
        refine ⟨rfl, rfl, ?_⟩
        simp only [Pending.absorb_spells]
        exact Spell.commitAll_agrees within still

end CastingState

/-- Casts neither see nor touch entities that they do not refer to: in worlds that agree on the
caster and on the entities referred to they end alike, and in neither do they change anyone else. -/
theorem casts_see_only_references (s : CastingState) (steps : List (Instruction StockOperator))
    {w v : World} (agree : w.AgreeOn (s.references steps) v) :
    let inW := s.castBatch (StockOperator.program steps) w
    let inV := s.castBatch (StockOperator.program steps) v
    inW.2.2 = inV.2.2 ∧ inW.1 = inV.1 ∧
    inW.2.1.AgreeOn (s.references steps) inV.2.1 ∧
    (∀ id, id ∉ s.references steps → inW.2.1.roster.find? id = w.roster.find? id) ∧
    (∀ id, id ∉ s.references steps → inV.2.1.roster.find? id = v.roster.find? id) ∧
    ∀ id ∈ Iota.idsAll inW.1.stack, id ∈ s.references steps := by
  intro inW inV
  obtain ⟨result, state, still⟩ := s.castBatch_agrees agree
  obtain ⟨stack, unseen⟩ := s.castBatch_leaves_unreferenced steps w
  obtain ⟨-, unseen'⟩ := s.castBatch_leaves_unreferenced steps v
  exact ⟨result, state, still, unseen, unseen', fun id known => stack known⟩

/-- The bystander goes unnoticed, also when it is gone and another one has come. -/
theorem workbench_cast_ignores_bystanders :
    let s : CastingState := .new .standard []
    let other := ((World.workbench.despawn (.ofNat 3)).spawn (.ofNat 4) .player "Visitor" .zero).1
    World.workbench.AgreeOn (s.references World.workbenchSteps) other ∧
    World.workbench ≠ other ∧
    (s.castBatch (StockOperator.program World.workbenchSteps) World.workbench).1 =
      (s.castBatch (StockOperator.program World.workbenchSteps) other).1 := by
  intro s other
  have agree : World.workbench.AgreeOn (s.references World.workbenchSteps) other := {
    casterPosition := rfl
    ambitRadius := rfl
    castingHand := rfl
    held := fun hand => by cases hand <;> rfl
    casterMedia := rfl
    registry := fun _ => rfl
    entities := by decide +kernel }
  exact ⟨agree, by decide +kernel, (casts_see_only_references s World.workbenchSteps agree).2.1⟩

end Spellcasting
