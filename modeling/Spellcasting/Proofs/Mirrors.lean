import Spellcasting.Proofs.Renaming

/-! # Worlds that mirror each other

A change of the world may go unnoticed, but for other identities of the entities in it. `Mirrors`
says so of what operators ask of a world and of what spells write to it. Evaluation in the changed
world then gives the renamed answer, a renamed spell does to it what the spell does to the world
itself, and a run of stock operators goes the same way.
-/

namespace Spellcasting

/-- A change of the world that shows only in the identities of its entities, and that what spells
write is not in the way of. -/
structure CastingEnv.Mirrors {ω : Type} [CastingEnv ω] (f : EntityId → EntityId) (g : ω → ω) :
    Prop where
  casterPosition : ∀ w, casterPosition (g w) = casterPosition w
  ambitRadius : ∀ w, ambitRadius (g w) = ambitRadius w
  castingHand : ∀ w, castingHand (g w) = castingHand w
  registry : ∀ w, registry (g w) = registry w
  heldItem : ∀ w hand, heldItem (g w) hand = heldItem w hand
  heldSlot? : ∀ w hand, heldSlot? (g w) hand = heldSlot? w hand
  entity? : ∀ w id, entity? (g w) (f id) = (entity? w id).map (EntityState.rename f)
  entitySlot? : ∀ w id, entitySlot? (g w) (f id) = entitySlot? w id
  setHeldItem : ∀ w hand stack, setHeldItem (g w) hand stack = g (setHeldItem w hand stack)
  setEntityItem : ∀ w id stack, setEntityItem (g w) (f id) stack = g (setEntityItem w id stack)
  kill : ∀ w id, kill (g w) (f id) = g (kill w id)

variable {ω : Type} [CastingEnv ω] {f : EntityId → EntityId} {g : ω → ω}

namespace CastingEnv.Mirrors

theorem inRange (m : Mirrors f g) (w : ω) (place : Vec3) :
    CastingEnv.inRange (g w) place = CastingEnv.inRange w place := by
  simp only [CastingEnv.inRange, m.casterPosition, m.ambitRadius]

theorem reachable (m : Mirrors f g) (w : ω) (ref : EntityRef) :
    CastingEnv.reachable (g w) (ref.rename f) =
      renameAnswer f (EntityState.rename f) (CastingEnv.reachable w ref) := by
  have known : CastingEnv.entity? (g w) (ref.rename f).id =
      (CastingEnv.entity? w ref.id).map (EntityState.rename f) := m.entity? w ref.id
  have near : CastingEnv.entityInRange (g w) (ref.rename f) = CastingEnv.entityInRange w ref := by
    unfold CastingEnv.entityInRange
    rw [known]
    cases CastingEnv.entity? w ref.id with
    | none => rfl
    | some state => exact congrArg (state.alive && ·) (m.inRange w state.position)
  unfold CastingEnv.reachable CastingEnv.assertEntityInRange
  rw [near, known]
  cases CastingEnv.entityInRange w ref with
  | false => rfl
  | true => cases CastingEnv.entity? w ref.id <;> rfl

theorem heldItemFor (m : Mirrors f g) (w : ω) (accept : ItemStack → Bool) :
    CastingEnv.heldItemFor (g w) accept = CastingEnv.heldItemFor w accept := by
  simp only [CastingEnv.heldItemFor, m.castingHand, m.heldItem]

end CastingEnv.Mirrors

open CastingEnv (Mirrors)

theorem Recharge.evaluate_mirrors (m : Mirrors f g) (args : List Iota) (w : ω) :
    evaluate (args.map (Iota.rename f)) (g w) =
      renameAnswer f (Option.map (Prod.map (Recharge.rename f) id)) (evaluate args w) := by
  unfold evaluate
  change ((Arguments.mk args 1).rename f).get .itemEntity 0 >>= _ = _
  rw [Arguments.get_rename Reading.itemEntity_renames]
  apply renameAnswer_bind
  intro ref _
  dsimp only
  rw [m.registry, m.heldItemFor]
  split
  · rfl
  · rw [m.reachable]
    apply renameAnswer_bind
    intro state _
    simp only [renameAnswer_ite]
    rfl

theorem CraftBattery.evaluate_mirrors (m : Mirrors f g) (args : List Iota) (w : ω) :
    evaluate (args.map (Iota.rename f)) (g w) =
      renameAnswer f (Option.map (Prod.map (CraftBattery.rename f) id)) (evaluate args w) := by
  unfold evaluate
  change ((Arguments.mk args 1).rename f).get .itemEntity 0 >>= _ = _
  rw [Arguments.get_rename Reading.itemEntity_renames]
  apply renameAnswer_bind
  intro ref _
  dsimp only
  rw [m.registry, m.heldItemFor]
  split
  · rfl
  · split
    · rfl
    · rw [m.reachable]
      apply renameAnswer_bind
      intro state _
      simp only [renameAnswer_ite]
      rfl

namespace StockOperator

theorem entityPosition_mirrors (m : Mirrors f g) (args : Arguments) (w : ω) :
    entityPosition (args.rename f) (g w) =
      renameAnswer f (List.map (Iota.rename f)) (entityPosition args w) := by
  unfold entityPosition
  rw [Arguments.get_rename Reading.entity_renames]
  apply renameAnswer_bind
  intro ref _
  rw [m.reachable]
  apply renameAnswer_bind
  intro state _
  rfl

/-- A stock operator answers the renamed arguments in the changed world by the renamed answer. -/
theorem execute_mirrors (m : Mirrors f g) (op : StockOperator) (args : List Iota) (w : ω) :
    op.adapter.execute (args.map (Iota.rename f)) (g w) =
      renameAnswer f (renameMade f) (op.adapter.execute args w) := by
  cases op with
  | emptyList => exact plain_rename Lists.emptyList_equivariant args (g w) w
  | singleton => exact plain_rename Lists.singleton_equivariant args (g w) w
  | append => exact plain_rename Lists.append_equivariant args (g w) w
  | concat => exact plain_rename Lists.concat_equivariant args (g w) w
  | index => exact plain_rename Lists.index_equivariant args (g w) w
  | listSize => exact plain_rename Lists.size_equivariant args (g w) w
  | reverse => exact plain_rename Lists.reverse_equivariant args (g w) w
  | add => exact plain_rename Arithmetic.add_equivariant args (g w) w
  | sub => exact plain_rename Arithmetic.sub_equivariant args (g w) w
  | mul => exact plain_rename Arithmetic.mul_equivariant args (g w) w
  | div => exact plain_rename Arithmetic.div_equivariant args (g w) w
  | entityPos =>
      have found := entityPosition_mirrors m ⟨args, 1⟩ w
      simp only [Arguments.rename] at found
      simp only [adapter, Adapter.execute, found]
      cases entityPosition ⟨args, 1⟩ w with
      | error mishap => rfl
      | ok results => rfl
  | recharge =>
      simp only [adapter, Adapter.execute, Recharge.evaluate_mirrors m]
      rcases Recharge.evaluate args w with mishap | _ | ⟨spell, spray⟩
      · rfl
      · rfl
      · exact congrArg (fun effects => Except.ok ([], effects))
          (SpellCast.effects_rename ⟨.recharge spell, Recharge.cost, [spray]⟩ true).symm
  | craftBattery =>
      simp only [adapter, Adapter.execute, CraftBattery.evaluate_mirrors m]
      rcases CraftBattery.evaluate args w with mishap | _ | ⟨spell, spray⟩
      · rfl
      · rfl
      · exact congrArg (fun effects => Except.ok ([], effects))
          (SpellCast.effects_rename ⟨.craftBattery spell, CraftBattery.cost, [spray]⟩ true).symm

end StockOperator

theorem Recharge.commit_mirrors (m : Mirrors f g) (spell : Recharge) (w : ω) :
    (spell.rename f).commit (g w) = g (spell.commit w) := by
  have slot : CastingEnv.entitySlot? (g w) (spell.rename f).target =
      CastingEnv.entitySlot? w spell.target := m.entitySlot? w spell.target
  have kept : (CastingEnv.heldSlot? (g w) (spell.rename f).hand).filter
        (·.item = (spell.rename f).holderItem) =
      (CastingEnv.heldSlot? w spell.hand).filter (·.item = spell.holderItem) := by
    rw [m.heldSlot?]
    rfl
  unfold commit
  dsimp only
  rw [slot, kept, m.registry]
  cases CastingEnv.entitySlot? w spell.target with
  | none => rfl
  | some source =>
      dsimp only
      cases (CastingEnv.heldSlot? w spell.hand).filter (·.item = spell.holderItem) with
      | none => rfl
      | some held =>
          dsimp only
          cases (CastingEnv.registry w).findHolder held with
          | none => rfl
          | some holder =>
              simp only [rename, m.setHeldItem, m.setEntityItem, m.kill]
              exact (apply_ite g _ _ _).symm

theorem CraftBattery.commit_mirrors (m : Mirrors f g) (spell : CraftBattery) (w : ω) :
    (spell.rename f).commit (g w) = g (spell.commit w) := by
  simp only [commit, rename, m.registry, m.entitySlot?, m.heldItem]
  split
  · cases CastingEnv.entitySlot? w spell.target with
    | none => rfl
    | some source =>
        dsimp only
        have made (stack : ItemStack) (condition : Prop) [Decidable condition] :
            (if condition then CastingEnv.setHeldItem (g w) spell.hand stack else g w) =
              g (if condition then CastingEnv.setHeldItem w spell.hand stack else w) := by
          rw [m.setHeldItem]
          exact (apply_ite g _ _ _).symm
        simp only [made, m.setEntityItem, m.kill]
        exact (apply_ite g _ _ _).symm
  · rfl

namespace Spell

theorem CapturedIn.commit_mirrors {v : ω} {args : List Iota} {spell : Spell ω}
    (captured : spell.CapturedIn v args) (m : Mirrors f g) (w : ω) :
    (spell.rename f).commit (g w) = g (spell.commit w) := by
  cases captured with
  | recharge => exact Recharge.commit_mirrors m _ w
  | craftBattery => exact CraftBattery.commit_mirrors m _ w

theorem commitAll_mirrors {v : ω} {spells : List (Spell ω)}
    (captured : ∀ spell ∈ spells, ∃ args, spell.CapturedIn v args) (m : Mirrors f g) (w : ω) :
    (spells.map (rename f)).foldl (fun w spell => spell.commit w) (g w) =
      g (spells.foldl (fun w spell => spell.commit w) w) := by
  induction spells generalizing w with
  | nil => rfl
  | cons spell rest ih =>
      obtain ⟨args, first⟩ := captured spell List.mem_cons_self
      simp only [List.map_cons, List.foldl_cons, first.commit_mirrors m]
      exact ih (fun other member => captured other (List.mem_cons_of_mem _ member)) _

end Spell

namespace CastingState

def rename (f : EntityId → EntityId) (s : CastingState) : CastingState :=
  { s with stack := s.stack.map (Iota.rename f) }

variable {s after : CastingState} {w : ω}

omit [CastingEnv ω] in
theorem whole_rename {rest args : List Iota} (whole : s.stack = rest ++ args) :
    (s.rename f).stack = rest.map (Iota.rename f) ++ args.map (Iota.rename f) := by
  simp only [CastingState.rename, whole, List.map_append]

theorem StepsTo.rename (m : Mirrors f g) {instruction : Instruction StockOperator}
    {result : Except Mishap (List (SideEffect ω))}
    (h : StepsTo w s (instruction.map StockOperator.toOperator) after result) :
    StepsTo (g w) (s.rename f) ((instruction.rename f).map StockOperator.toOperator)
      (after.rename f) (renameAnswer f (List.map (SideEffect.rename f)) result) := by
  have height : (s.rename f).stack.length = s.stack.length := List.length_map _
  cases instruction with
  | literal iota =>
      have pushed : (s.stack ++ [iota]).map (Iota.rename f) =
          (s.rename f).stack ++ [iota.rename f] := List.map_append
      cases h with
      | push fits =>
          simp only [CastingState.rename, pushed]
          exact .push (height ▸ fits)
      | pushOver full =>
          simp only [CastingState.rename, pushed]
          exact .pushOver (height ▸ full)
  | operator op =>
      cases h with
      | tooDeep spent => exact .tooDeep spent
      | tooFew left few =>
          have short : StepsTo (g w) (s.rename f) (.operator op.toOperator) _ _ :=
            .tooFew left (height ▸ few)
          rw [height] at short
          exact short
      | @refuse _ rest args mishap left whole count executed =>
          have made := op.execute_mirrors m args w
          rw [executed] at made
          exact .refuse left (whole_rename whole) ((List.length_map _).trans count) made
      | @apply _ rest args results effects left whole count executed fits =>
          have made := op.execute_mirrors m args w
          rw [executed] at made
          have applied := StepsTo.apply (s := s.rename f) left (whole_rename whole)
            ((List.length_map _).trans count) made
            (by rw [← List.map_append, List.length_map]; exact fits)
          rw [← List.map_append] at applied
          exact applied
      | @applyOver _ rest args results effects left whole count executed tall =>
          have made := op.execute_mirrors m args w
          rw [executed] at made
          have applied := StepsTo.applyOver (s := s.rename f) left (whole_rename whole)
            ((List.length_map _).trans count) made
            (by rw [← List.map_append, List.length_map]; exact tall)
          rw [← List.map_append] at applied
          exact applied

variable {steps : List (Instruction StockOperator)} {effects : List (SideEffect ω)} {place : Nat}
  {mishap : Mishap}

theorem Evaluates.rename (m : Mirrors f g)
    (run : Evaluates w s (StockOperator.program steps) after effects) :
    Evaluates (g w) (s.rename f) (StockOperator.program (steps.map (Instruction.rename f)))
      (after.rename f) (effects.map (SideEffect.rename f)) := by
  induction steps generalizing s effects with
  | nil =>
      cases run
      exact .done _
  | cons instruction rest ih =>
      cases run with
      | step taken run =>
          rw [List.map_append]
          exact .step ((stepsTo_iff.mpr taken).rename m).step (ih run)

theorem Stops.rename (m : Mirrors f g)
    (stop : Stops w s (StockOperator.program steps) place after mishap) :
    Stops (g w) (s.rename f) (StockOperator.program (steps.map (Instruction.rename f))) place
      (after.rename f) (mishap.rename f) := by
  induction steps generalizing s place with
  | nil => cases stop
  | cons instruction rest ih =>
      cases stop with
      | here taken => exact .here ((stepsTo_iff.mpr taken).rename m).step
      | later taken stop => exact .later ((stepsTo_iff.mpr taken).rename m).step (ih stop)

end CastingState

end Spellcasting
