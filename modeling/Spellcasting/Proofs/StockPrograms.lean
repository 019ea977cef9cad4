import Spellcasting.Operator.Stock
import Spellcasting.Proofs.Evaluation
import Spellcasting.World

/-! # Programs of stock operators

The only spells a stock program asks for are recharges and crafted batteries that the evaluator
answered in the world of the cast. What evaluation has checked of such a spell is recorded once,
for the claims about its commit.
-/

namespace Spellcasting

variable {ω : Type}

theorem bind_ok {ε α β : Type} {first : Except ε α} {next : α → Except ε β} {result : β}
    (h : first >>= next = .ok result) : ∃ value, first = .ok value ∧ next value = .ok result := by
  cases first with
  | error e => cases h
  | ok value => exact ⟨value, rfl, h⟩

/-- What is answered, from the first half of the answer, which can be compared. -/
theorem exists_answer {α β : Type} {answer : Except Mishap (Option (α × β))} {spell : α}
    (first : (answer.toOption.bind id).map Prod.fst = some spell) :
    ∃ spray, answer = .ok (some (spell, spray)) := by
  rcases answer with mishap | _ | ⟨_, spray⟩
  · cases first
  · cases first
  · cases first
    exact ⟨spray, rfl⟩

theorem Arguments.any_ok {a : Arguments} {idx : Nat} {i : Iota} (h : a.any idx = .ok i) :
    a.values[idx]? = some i := by
  unfold any at h
  split at h
  · next found => cases h; exact found
  · cases h

theorem Arguments.get_ok {α : Type} {a : Arguments} {reading : Reading α} {idx : Nat} {value : α}
    (h : a.get reading idx = .ok value) :
    ∃ i, a.values[idx]? = some i ∧ reading.read? i = some value := by
  unfold get at h
  split at h
  · cases h
  · next i found =>
      split at h
      · next read => cases h; exact ⟨i, any_ok found, read⟩
      · cases h

theorem Reading.itemEntity_eq_some {i : Iota} {ref : EntityRef}
    (h : itemEntity.read? i = some ref) : i = .entity ref ∧ ref.isItem = true := by
  obtain ⟨entity, item⟩ := Option.filter_eq_some_iff.mp h
  cases i with
  | entity e => cases entity; exact ⟨rfl, item⟩
  | _ => cases entity

section

variable [CastingEnv ω]

theorem CastingEnv.reachable_cases (w : ω) (ref : EntityRef) :
    (∃ state, CastingEnv.entity? w ref.id = some state ∧
      CastingEnv.entityInRange w ref = true ∧ CastingEnv.reachable w ref = .ok state) ∨
    CastingEnv.entityInRange w ref = false ∧
      CastingEnv.reachable w ref = .error (.entityTooFarAway ref) := by
  unfold CastingEnv.reachable CastingEnv.assertEntityInRange
  cases near : CastingEnv.entityInRange w ref with
  | false => exact .inr ⟨rfl, rfl⟩
  | true =>
      cases known : CastingEnv.entity? w ref.id with
      | none => simp only [CastingEnv.entityInRange, known, Bool.false_eq_true] at near
      | some state => exact .inl ⟨state, rfl, rfl, rfl⟩

theorem CastingEnv.reachable_ok {w : ω} {ref : EntityRef} {state : EntityState}
    (h : CastingEnv.reachable w ref = .ok state) :
    CastingEnv.entity? w ref.id = some state ∧ CastingEnv.entityInRange w ref = true := by
  rcases CastingEnv.reachable_cases w ref with ⟨found, known, near, reached⟩ | ⟨-, refused⟩
  · obtain rfl := Except.ok.inj (reached.symm.trans h)
    exact ⟨known, near⟩
  · cases refused.symm.trans h

theorem CastingEnv.stack_heldItemFor (w : ω) (accept : ItemStack → Bool) :
    (CastingEnv.heldItemFor w accept).stack =
      CastingEnv.heldItem w (CastingEnv.heldItemFor w accept).hand := by
  simp only [CastingEnv.heldItemFor]
  split <;> rfl

/-- What evaluation has checked of the target of a spell. -/
structure Targeted (w : ω) (args : List Iota) (ref : EntityRef) (state : EntityState) : Prop where
  argument : args[0]? = some (.entity ref)
  kind : ref.isItem = true
  known : CastingEnv.entity? w ref.id = some state
  inRange : CastingEnv.entityInRange w ref = true
  media : (CastingEnv.registry w).isMediaItem (state.item.getD .empty) = true

theorem Recharge.evaluate_some {args : List Iota} {w : ω} {spell : Recharge} {spray : Spray}
    (h : evaluate args w = .ok (some (spell, spray))) :
    ∃ ref state holder, Targeted w args ref state ∧ spell.target = ref.id ∧
      spray = .burst state.position burstSize ∧
      spell.hand = (CastingEnv.heldItemFor w (hasRoom (CastingEnv.registry w))).hand ∧
      spell.holderItem = (CastingEnv.heldItem w spell.hand).item ∧
      rechargeable? (CastingEnv.registry w) (CastingEnv.heldItem w spell.hand) = some holder ∧
      holder.freeCapacity ≠ 0 := by
  unfold evaluate at h
  obtain ⟨ref, argument, h⟩ := bind_ok h
  obtain ⟨i, found, read⟩ := Arguments.get_ok argument
  obtain ⟨rfl, kind⟩ := Reading.itemEntity_eq_some read
  dsimp only at h
  split at h
  · cases h
  · next holder selected =>
      obtain ⟨state, reached, h⟩ := bind_ok h
      obtain ⟨known, inRange⟩ := CastingEnv.reachable_ok reached
      rw [CastingEnv.stack_heldItemFor] at selected
      split at h
      · next media =>
          split at h
          · cases h
          · next room =>
              cases h
              exact ⟨ref, state, holder, ⟨found, kind, known, inRange, media⟩, rfl, rfl, rfl,
                congrArg ItemStack.item (CastingEnv.stack_heldItemFor w _), selected, room⟩
      · cases h

theorem CraftBattery.evaluate_some {args : List Iota} {w : ω} {spell : CraftBattery}
    {spray : Spray} (h : evaluate args w = .ok (some (spell, spray))) :
    ∃ ref state, Targeted w args ref state ∧ spell.target = ref.id ∧
      spray = .burst state.position Recharge.burstSize ∧
      spell.hand = (CastingEnv.heldItemFor w (·.is .glassBottle)).hand ∧
      (CastingEnv.heldItem w spell.hand).is .glassBottle = true ∧
      (CastingEnv.heldItem w spell.hand).count = 1 ∧
      (drain (CastingEnv.registry w) (state.item.getD .empty) true).1 ≠ 0 := by
  unfold evaluate at h
  obtain ⟨ref, argument, h⟩ := bind_ok h
  obtain ⟨i, found, read⟩ := Arguments.get_ok argument
  obtain ⟨rfl, kind⟩ := Reading.itemEntity_eq_some read
  dsimp only at h
  split at h
  · cases h
  · next bottle =>
      split at h
      · cases h
      · next single =>
          obtain ⟨state, reached, h⟩ := bind_ok h
          obtain ⟨known, inRange⟩ := CastingEnv.reachable_ok reached
          rw [CastingEnv.stack_heldItemFor] at bottle single
          split at h
          · cases h
          · next media =>
              cases h
              simp only [Bool.or_eq_true, Bool.not_eq_true', decide_eq_true_eq, not_or,
                Bool.not_eq_false] at media bottle
              exact ⟨ref, state, ⟨found, kind, known, inRange, media.1⟩, rfl, rfl, rfl, bottle,
                by simpa using single, media.2⟩

/-- A spell that a stock operator answered to some arguments in a world. -/
inductive Spell.CapturedIn (w : ω) (args : List Iota) : Spell ω → Prop where
  | recharge {spell spray} :
      Recharge.evaluate args w = .ok (some (spell, spray)) → CapturedIn w args (.recharge spell)
  | craftBattery {spell spray} :
      CraftBattery.evaluate args w = .ok (some (spell, spray)) →
      CapturedIn w args (.craftBattery spell)

namespace StockOperator

/-- A program of stock operators as one of adapters. -/
def adapters (steps : List (Instruction StockOperator)) : List (Instruction (Adapter ω)) :=
  steps.map (Instruction.map adapter)

/-- A program of stock operators as one of operators. -/
def program (steps : List (Instruction StockOperator)) : List (Instruction (Operator ω)) :=
  steps.map (Instruction.map toOperator)

/-- Every spell that a stock operator asks for was answered in the world it was evaluated in. -/
theorem execute_captured {op : StockOperator} {args results : List Iota} {w : ω}
    {effects : List (SideEffect ω)} (h : op.adapter.execute args w = .ok (results, effects)) :
    ∀ spell ∈ SideEffect.spells effects, spell.CapturedIn w args := by
  intro spell asked
  cases op with
  | recharge =>
      obtain ⟨cast, answered, rfl⟩ := (Adapter.execute_spell_ok h).2 spell asked
      obtain ⟨answer, evaluated, answered⟩ := bind_ok answered
      cases answer with
      | none => cases answered
      | some answer =>
          cases answered
          exact .recharge evaluated
  | craftBattery =>
      obtain ⟨cast, answered, rfl⟩ := (Adapter.execute_spell_ok h).2 spell asked
      obtain ⟨answer, evaluated, answered⟩ := bind_ok answered
      cases answer with
      | none => cases answered
      | some answer =>
          cases answered
          exact .craftBattery evaluated
  | _ =>
      obtain ⟨-, spellless⟩ := Adapter.execute_const_ok h
      rw [spellless] at asked
      cases asked

end StockOperator

theorem CastingState.Evaluates.captured {s after : CastingState}
    {steps : List (Instruction StockOperator)} {w : ω} {effects : List (SideEffect ω)}
    (h : Evaluates w s (StockOperator.program steps) after effects) :
    ∀ spell ∈ SideEffect.spells effects, ∃ args, spell.CapturedIn w args := by
  induction steps generalizing s effects with
  | nil =>
      cases h
      intro spell asked
      cases asked
  | cons instruction rest ih =>
      cases h with
      | step taken run =>
          intro spell asked
          rw [SideEffect.spells_append, List.mem_append] at asked
          rcases asked with now | later
          · cases instruction with
            | literal iota =>
                obtain ⟨-, rfl⟩ := step_literal_ok taken
                cases now
            | operator op =>
                obtain ⟨_, args, _, -, -, executed, -⟩ := step_adapted_ok taken
                exact ⟨args, StockOperator.execute_captured executed spell now⟩
          · exact ih run spell later

end

namespace World

/-- A world to try casts in: a caster with a bottle in the main hand, an empty battery in the other
and the means for both spells, two stacks on the ground and a bystander. -/
def workbench : World :=
  let caster := { initial with casterMedia := 200000 }
  let hands := (caster.hold .main (.new .glassBottle 1)).hold .off
    ((ItemStack.new .battery 1).withMaxMedia 15000)
  let dust := (hands.spawnItem (.ofNat 1) "Dust" .zero (.new .amethystDust 2)).1
  let shards := (dust.spawnItem (.ofNat 2) "Shards" ⟨3, 4, 0⟩ (.new .amethystShard 2)).1
  (shards.spawn (.ofNat 3) .living "Sheep" .zero).1

/-- Recharges the battery from the dust and bottles the shards. -/
def workbenchSteps : List (Instruction StockOperator) :=
  [.literal (.entity ⟨.ofNat 1, .item, "Dust"⟩), .operator .recharge,
    .literal (.entity ⟨.ofNat 2, .item, "Shards"⟩), .operator .craftBattery]

end World

end Spellcasting
