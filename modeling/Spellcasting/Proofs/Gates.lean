import Spellcasting.Proofs.Commits
import Spellcasting.Proofs.Mirrors
import Spellcasting.Proofs.Stepwise

/-! # Limits and payment are gates

Limits and reserve decide whether a cast goes through and nothing else about it. A stock program
that is accepted is accepted under looser limits and by a richer caster too, and does the same; all
that may differ is what is left of the reserve.
-/

namespace Spellcasting

/-- Limits that let through what others do: no less budget, no less room, and payment only where
the others ask for it. -/
structure Limits.Looser (limits looser : Limits) : Prop where
  budget : limits.maxOpCount ≤ looser.maxOpCount
  room : limits.maxStackDepth ≤ looser.maxStackDepth
  payment : looser.requireMedia = limits.requireMedia ∨ looser.requireMedia = false

theorem Limits.Looser.asked {limits looser : Limits} (loose : limits.Looser looser)
    (required : looser.requireMedia = true) : limits.requireMedia = true := by
  rcases loose.payment with same | free
  · exact same ▸ required
  · rw [required] at free
    cases free

namespace World

/-- The same world with another reserve. -/
def withReserve (reserve : Media) (w : World) : World := { w with casterMedia := reserve }

theorem setEntityItem_withReserve (reserve : Media) (w : World) (target : EntityId)
    (stack : ItemStack) :
    (w.withReserve reserve).setEntityItem target stack =
      (w.setEntityItem target stack).withReserve reserve := by
  unfold setEntityItem
  change (if (w.entitySlot? target).isSome then _ else _) = _
  split <;> rfl

theorem mirrors_withReserve (reserve : Media) : CastingEnv.Mirrors id (withReserve reserve) where
  casterPosition _ := rfl
  ambitRadius _ := rfl
  castingHand _ := rfl
  registry _ := rfl
  heldItem _ hand := by cases hand <;> rfl
  heldSlot? _ hand := by cases hand <;> rfl
  entity? w target := (congrFun Option.map_id (w.roster.find? target)).symm
  entitySlot? _ _ := rfl
  setHeldItem _ hand _ := by cases hand <;> rfl
  setEntityItem := setEntityItem_withReserve reserve
  kill _ _ := rfl

end World

namespace Spell

theorem rename_id {ω : Type} (spell : Spell ω) : spell.rename id = spell := by
  cases spell <;> rfl

theorem commitAll_withReserve {v : World} {spells : List (Spell World)}
    (captured : ∀ spell ∈ spells, ∃ args, spell.CapturedIn v args) (reserve : Media) (w : World) :
    spells.foldl (fun w spell => spell.commit w) (w.withReserve reserve) =
      (spells.foldl (fun w spell => spell.commit w) w).withReserve reserve := by
  have kept : spells.map (rename id) = spells :=
    List.map_id'' rename_id spells
  have committed := commitAll_mirrors captured (World.mirrors_withReserve reserve) w
  rwa [kept] at committed

end Spell

theorem StockOperator.execute_withReserve (op : StockOperator) (args : List Iota) (reserve : Media)
    (w : World) :
    op.adapter.execute args (w.withReserve reserve) = op.adapter.execute args w := by
  cases op <;> rfl

namespace CastingState

/-- The same state held to other limits. -/
def under (limits : Limits) (s : CastingState) : CastingState := { s with limits }

section

variable {ω : Type} {w : ω} {s after : CastingState} {looser : Limits}
  {instruction : Instruction (Operator ω)} {program : List (Instruction (Operator ω))}
  {effects : List (SideEffect ω)}

theorem StepsTo.under (h : StepsTo w s instruction after (.ok effects))
    (loose : s.limits.Looser looser) :
    StepsTo w (s.under looser) instruction (after.under looser) (.ok effects) := by
  have budget := UInt64.le_iff_toNat_le.mp loose.budget
  have room := UInt64.le_iff_toNat_le.mp loose.room
  cases h with
  | push fits => exact .push (Nat.lt_of_lt_of_le fits room)
  | apply left whole count executed fits =>
      exact .apply (Nat.lt_of_lt_of_le left budget) whole count executed (Nat.le_trans fits room)
  | act left ran fits => exact .act (Nat.lt_of_lt_of_le left budget) ran (Nat.le_trans fits room)

theorem Evaluates.under (run : Evaluates w s program after effects)
    (loose : s.limits.Looser looser) :
    Evaluates w (s.under looser) program (after.under looser) effects := by
  induction run with
  | done s => exact .done _
  | step taken _ ih =>
      have moved := (stepsTo_iff.mpr taken).under loose
      exact .step moved.step (ih (step_limits taken ▸ loose))

end

section

variable {w : World} {s after : CastingState} {steps : List (Instruction StockOperator)}
  {effects : List (SideEffect World)}

theorem step_withReserve (s : CastingState) (instruction : Instruction StockOperator)
    (reserve : Media) (w : World) :
    s.step (instruction.map StockOperator.toOperator) (w.withReserve reserve) =
      s.step (instruction.map StockOperator.toOperator) w := by
  cases instruction with
  | literal iota => rfl
  | operator op =>
      simp only [Instruction.map, step, evaluate, StockOperator.toOperator, Operator.operate,
        Adapter.operate, StockOperator.execute_withReserve]

theorem Evaluates.withReserve (run : Evaluates w s (StockOperator.program steps) after effects)
    (reserve : Media) :
    Evaluates (w.withReserve reserve) s (StockOperator.program steps) after effects := by
  induction steps generalizing s effects with
  | nil =>
      cases run
      exact .done _
  | cons instruction rest ih =>
      cases run with
      | step taken run =>
          rw [← step_withReserve s instruction reserve] at taken
          exact .step taken (ih run)

theorem price_le_of_pay {limits : Limits} {price drawn : Media} {paid : World}
    (required : limits.requireMedia = true)
    (paying : pay limits price w = (.ok drawn, paid)) : price ≤ w.casterMedia := by
  rw [w.paysBy.pay] at paying
  split at paying
  · cases paying
  · next covered => exact UInt64.not_lt.mp fun short => covered ⟨required, short⟩

/-- A price that can be paid is paid under looser limits and out of a greater reserve, which loses
just that, or nothing. -/
theorem pay_withReserve {limits looser : Limits} {price drawn reserve : Media} {paid : World}
    (paying : pay limits price w = (.ok drawn, paid)) (loose : limits.Looser looser)
    (richer : w.casterMedia ≤ reserve) :
    ∃ left : Media,
      pay looser price (w.withReserve reserve) =
        (.ok (if looser.requireMedia then price else 0), paid.withReserve left) ∧
      reserve.toNat = left.toNat + if looser.requireMedia then price.toNat else 0 := by
  -- whatever has been drawn, the rest of the world is what it was
  have rest (left : Media) : paid.withReserve left = w.withReserve left := by
    rw [(pay_ok paying).2]
    rfl
  rw [(w.withReserve reserve).paysBy.pay]
  rcases required : looser.requireMedia with _ | _
  · refine ⟨reserve, ?_, rfl⟩
    rw [rest]
    rfl
  · have enough : price ≤ reserve :=
      UInt64.le_trans (price_le_of_pay (loose.asked required) paying) richer
    have met : ¬ (True ∧ (w.withReserve reserve).casterMedia < price) :=
      fun short => UInt64.not_lt.mpr enough short.2
    refine ⟨reserve - price, ?_, ?_⟩
    · simp only [if_neg met, if_true, rest]
      rfl
    · simp only [if_true, UInt64.toNat_sub_of_le _ _ enough]
      have := UInt64.le_iff_toNat_le.mp enough
      omega

end

end CastingState

/-- Limits and payment are gates: what is accepted under some limits is accepted under looser ones
and out of a greater reserve, with the same stack, report and world, but for the reserve, which
loses just what the cast costs where that has to be paid, and nothing where it has not. -/
theorem limits_and_payment_are_gates (s : CastingState) (steps : List (Instruction StockOperator))
    (w : World) (after : CastingState) (w' : World) (report : CastReport)
    (accepted : s.castBatch (StockOperator.program steps) w = (after, w', .ok report))
    (looser : Limits) (loose : s.limits.Looser looser)
    (reserve : Media) (richer : w.casterMedia ≤ reserve) :
    ∃ left : Media,
      (s.under looser).castBatch (StockOperator.program steps) (w.withReserve reserve) =
        (after.under looser, w'.withReserve left,
          .ok { report with
                mediaDrawn := if looser.requireMedia then report.mediaSpent else 0 }) ∧
      reserve.toNat =
        left.toNat + if looser.requireMedia then report.mediaSpent.toNat else 0 := by
  rcases CastingState.evaluates_or_stops w s.resetBudget (StockOperator.program steps) with
    ⟨reached, effects, run⟩ | ⟨place, reached, mishap, stop⟩
  · have moved : CastingState.Evaluates (w.withReserve reserve) (s.under looser).resetBudget
        (StockOperator.program steps) (reached.under looser) effects :=
      (run.under loose).withReserve reserve
    rw [run.castBatch] at accepted
    dsimp only at accepted
    split at accepted
    · cases accepted
    · next drawn paid payment =>
        cases accepted
        obtain ⟨left, paying, balance⟩ := CastingState.pay_withReserve payment loose richer
        refine ⟨left, ?_, balance⟩
        rw [moved.castBatch, ← Spell.commitAll_withReserve run.captured]
        simp only [CastingState.under, paying]
  · rw [stop.castBatch] at accepted
    cases accepted

/-- Just the budget and the room that the steps at the workbench take. -/
def Limits.workbench : Limits := { standard with maxOpCount := 2, maxStackDepth := 1 }

/-- With more of both, and of media, the cast at the workbench is the same and costs the same. -/
theorem workbench_cast_passes_wider_gates : ∃ after w' report left,
    (CastingState.new .workbench []).castBatch (StockOperator.program World.workbenchSteps)
      World.workbench = (after, w', .ok report) ∧
    Limits.workbench.Looser .standard ∧ World.workbench.casterMedia ≤ 300000 ∧
    ((CastingState.new .workbench []).under .standard).castBatch
        (StockOperator.program World.workbenchSteps) (World.workbench.withReserve 300000) =
      (after.under .standard, w'.withReserve left,
        .ok { report with mediaDrawn := report.mediaSpent }) ∧
    300000 = left.toNat + report.mediaSpent.toNat := by
  have loose : Limits.workbench.Looser .standard := ⟨by decide, by decide, .inl rfl⟩
  have richer : World.workbench.casterMedia ≤ 300000 := by decide
  obtain ⟨after, w', report, cast⟩ := CastingState.exists_accepted (.new .workbench [])
    (StockOperator.program World.workbenchSteps) World.workbench (by decide +kernel)
  obtain ⟨left, same, balance⟩ :=
    limits_and_payment_are_gates _ _ _ _ _ _ cast .standard loose 300000 richer
  exact ⟨after, w', report, left, cast, loose, richer, same, balance⟩

end Spellcasting
