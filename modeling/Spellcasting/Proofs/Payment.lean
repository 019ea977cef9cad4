import Spellcasting.Proofs.StockPrograms
import Spellcasting.Proofs.Stepwise

/-! # What an accepted batch pays

The effects of a batch may cost more than fits an amount of media; what is asked for them is then
the greatest amount. A caster who has all of that is let through with it. In every other accepted
batch the caster had the whole cost and has paid it.
-/

namespace Spellcasting

namespace CastingState

/-- An accepted batch that has to be paid asks for the price of its run, which was there, and draws
it. -/
theorem castBatch_paid {s after : CastingState} {program : List (Instruction (Operator World))}
    {w w' : World} {report : CastReport} (required : s.limits.requireMedia = true)
    (accepted : s.castBatch program w = (after, w', .ok report)) :
    ∃ effects, s.resetBudget.stepwise w program = (after, .ok effects) ∧
      SideEffect.price effects ≤ w.casterMedia ∧ report.mediaDrawn = SideEffect.price effects := by
  rw [w.paysBy.castBatch] at accepted
  unfold batchOfSteps at accepted
  rcases run : s.resetBudget.stepwise w program with ⟨reached, ⟨place, mishap⟩ | effects⟩
  · simp only [run, Prod.mk.injEq] at accepted
    cases accepted.2.2
  · simp only [run, required, true_and, if_true] at accepted
    split at accepted
    · simp only [Prod.mk.injEq] at accepted
      cases accepted.2.2
    · next enough =>
        cases accepted
        exact ⟨effects, rfl, UInt64.not_lt.mp enough, rfl⟩

end CastingState

/-- An accepted batch that has to be paid is paid in full by a caster who had its whole cost, with
one exception: what costs more than the greatest amount is sold for a reserve of just that amount.
-/
theorem accepted_batches_are_paid (s : CastingState)
    (program : List (Instruction (Operator World))) (w : World) (after : CastingState) (w' : World)
    (report : CastReport) (required : s.limits.requireMedia = true)
    (accepted : s.castBatch program w = (after, w', .ok report)) :
    ∃ effects, s.resetBudget.stepwise w program = (after, .ok effects) ∧
      (SideEffect.cost effects ≤ w.casterMedia.toNat ∧
          report.mediaDrawn.toNat = SideEffect.cost effects ∨
        UInt64.size ≤ SideEffect.cost effects ∧ w.casterMedia.toNat = UInt64.size - 1 ∧
          report.mediaDrawn = w.casterMedia) := by
  obtain ⟨effects, run, enough, drawn⟩ := CastingState.castBatch_paid required accepted
  refine ⟨effects, run, ?_⟩
  have asked := SideEffect.toNat_price effects
  have had := UInt64.le_iff_toNat_le.mp enough
  have most := w.casterMedia.toNat_lt_size
  by_cases fits : SideEffect.cost effects < UInt64.size
  · left
    rw [drawn]
    omega
  · right
    refine ⟨by omega, by omega, ?_⟩
    rw [drawn]
    apply UInt64.toNat_inj.mp
    omega

/-- Both spells of the workbench are paid for out of a reserve that has their cost. -/
theorem workbench_cast_is_paid : ∃ after w' report effects,
    (CastingState.new .standard []).castBatch (StockOperator.program World.workbenchSteps)
      World.workbench = (after, w', .ok report) ∧
    (CastingState.new .standard []).resetBudget.stepwise World.workbench
      (StockOperator.program World.workbenchSteps) = (after, .ok effects) ∧
    SideEffect.cost effects ≤ World.workbench.casterMedia.toNat ∧
    report.mediaDrawn.toNat = SideEffect.cost effects := by
  have paid : ((CastingState.new .standard []).castBatch
      (StockOperator.program World.workbenchSteps) World.workbench).2.2.isOk = true := by
    decide +kernel
  rcases cast : (CastingState.new .standard []).castBatch
    (StockOperator.program World.workbenchSteps) World.workbench with ⟨after, w', failure | report⟩
  · rw [cast] at paid
    cases paid
  · obtain ⟨effects, run, whole | ⟨-, full, -⟩⟩ :=
      accepted_batches_are_paid _ _ _ _ _ _ rfl cast
    · exact ⟨after, w', report, effects, rfl, run, whole⟩
    · exact absurd full (by decide +kernel)

namespace World

/-- A caster with the greatest amount of media. -/
def fullReserve : World := { initial with casterMedia := .ofNat (UInt64.size - 1) }

/-- One operator that costs the greatest amount, and another that costs one more. -/
def dearSteps : List (Instruction (Operator World)) :=
  [.operator (.const ⟨0, .ofNat (UInt64.size - 1), fun _ _ => .ok []⟩),
    .operator (.const ⟨0, 1, fun _ _ => .ok []⟩)]

end World

/-- A full reserve is let through with a batch that costs more than it has. -/
theorem full_reserve_buys_more_than_it_has :
    ¬ ∀ (s : CastingState) (program : List (Instruction (Operator World))) (w : World)
        (after : CastingState) (w' : World) (report : CastReport)
        (effects : List (SideEffect World)),
      s.limits.requireMedia = true →
      s.castBatch program w = (after, w', .ok report) →
      s.resetBudget.stepwise w program = (after, .ok effects) →
      SideEffect.cost effects ≤ w.casterMedia.toNat ∧
        report.mediaDrawn.toNat = SideEffect.cost effects := by
  intro claim
  have exact := claim (.new .standard []) World.dearSteps World.fullReserve _ _ _ _ rfl rfl rfl
  exact absurd exact.1 (by decide +kernel)

end Spellcasting
