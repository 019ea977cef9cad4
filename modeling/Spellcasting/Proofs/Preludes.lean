import Spellcasting.Proofs.Continuations
import Spellcasting.Proofs.StockPrograms

/-! # Preludes

A program may begin with a part that only works on the stack. Such a prelude can be cast on its own
and the rest after it, with the outcome of casting both at once: a stock operator that is no spell
costs nothing and asks for nothing, so all that the rest could miss is what is left of the budget.
-/

namespace Spellcasting

/-- Whether an operator leaves results and is no spell. -/
def Adapter.isConst {ω : Type} : Adapter ω → Bool
  | const _ => true
  | spell _ => false

/-- Steps without a spell among their operators. -/
def SpellFree (steps : List (Instruction StockOperator)) : Prop :=
  ∀ op, .operator op ∈ steps → (op.adapter : Adapter World).isConst = true

def Instruction.isOperator {α : Type} : Instruction α → Bool
  | literal _ => false
  | operator _ => true

/-- How many operators a program evaluates. -/
def operatorCount {α : Type} (program : List (Instruction α)) : Nat :=
  program.countP Instruction.isOperator

theorem operatorCount_operator {α : Type} (op : α) (rest : List (Instruction α)) :
    operatorCount (.operator op :: rest) = operatorCount rest + 1 :=
  List.countP_cons_of_pos rfl

theorem operatorCount_program {ω : Type} [CastingEnv ω] (steps : List (Instruction StockOperator)) :
    operatorCount (StockOperator.program steps : List (Instruction (Operator ω))) =
      operatorCount steps := by
  unfold operatorCount StockOperator.program
  rw [List.countP_map]
  congr 1
  funext instruction
  cases instruction <;> rfl

theorem StockOperator.effects_of_isConst {op : StockOperator} {args results : List Iota} {w : World}
    {effects : List (SideEffect World)} (const : (op.adapter : Adapter World).isConst = true)
    (executed : op.adapter.execute args w = .ok (results, effects)) : effects = [] := by
  cases op with
  | recharge => cases const
  | craftBattery => cases const
  | _ =>
      simp only [adapter, plain, Adapter.execute] at executed
      split at executed
      · cases executed
      · cases executed
        rfl

namespace CastingState

/-- The same state with another count of evaluated operators. -/
def counting (s : CastingState) (evaluated : Nat) : CastingState := { s with evaluated }

section

variable {ω : Type} {w : ω} {s after : CastingState} {program : List (Instruction (Operator ω))}
  {effects : List (SideEffect ω)}

theorem Evaluates.evaluated (run : Evaluates w s program after effects) :
    after.evaluated = s.evaluated + operatorCount program := by
  induction run with
  | done => rfl
  | @step s mid after instruction rest asked later taken _ ih =>
      rw [ih]
      cases instruction with
      | literal iota =>
          obtain ⟨rfl, -⟩ := step_literal_ok taken
          rfl
      | operator op =>
          obtain ⟨-, stack, -, -, rfl⟩ := step_operator_ok.mp taken
          rw [operatorCount_operator, leave, Nat.add_assoc, Nat.add_comm 1]

theorem Evaluates.operatorCount_le (run : Evaluates w s program after effects) :
    operatorCount program ≤ s.limits.maxOpCount.toNat - s.evaluated := by
  induction run with
  | done => exact Nat.zero_le _
  | @step s mid after instruction rest asked later taken _ ih =>
      cases instruction with
      | literal iota =>
          obtain ⟨rfl, -⟩ := step_literal_ok taken
          exact ih
      | operator op =>
          obtain ⟨left, stack, -, -, rfl⟩ := step_operator_ok.mp taken
          rw [operatorCount_operator]
          simp only [leave] at ih
          omega

theorem Evaluates.counting (run : Evaluates w s program after effects) (n : Nat)
    (budget : operatorCount program ≤ s.limits.maxOpCount.toNat - n) :
    Evaluates w (s.counting n) program (after.counting (n + operatorCount program)) effects := by
  induction run generalizing n with
  | done s => exact .done _
  | @step s mid after instruction rest asked later taken _ ih =>
      cases instruction with
      | literal iota =>
          cases stepsTo_iff.mpr taken with
          | push fits => exact .step (StepsTo.push (s := s.counting n) fits).step (ih n budget)
      | operator op =>
          obtain ⟨-, stack, operated, fits, rfl⟩ := step_operator_ok.mp taken
          rw [operatorCount_operator] at budget ⊢
          have still : (s.counting n).evaluated < s.limits.maxOpCount.toNat := by
            simp only [CastingState.counting]
            omega
          have now := step_operator_ok (s := s.counting n).mpr ⟨still, stack, operated, fits, rfl⟩
          have next := ih (n + 1) (by simp only [leave]; omega)
          rw [Nat.add_comm _ 1, ← Nat.add_assoc]
          exact .step now next

end

section

variable {w w' : World} {s t after : CastingState} {steps : List (Instruction StockOperator)}
  {effects : List (SideEffect World)} {program rest : List (Instruction (Operator World))}

theorem Evaluates.effects_of_spellFree
    (run : Evaluates w s (StockOperator.program steps) after effects) (free : SpellFree steps) :
    effects = [] := by
  induction steps generalizing s effects with
  | nil =>
      cases run
      rfl
  | cons instruction steps ih =>
      cases run with
      | @step _ mid _ _ _ asked later taken run =>
          obtain rfl : later = [] := ih run fun op member => free op (List.mem_cons_of_mem _ member)
          rw [List.append_nil]
          cases instruction with
          | literal iota => exact (step_literal_ok taken).2
          | operator op =>
              obtain ⟨_, args, results, -, -, executed, -⟩ := step_adapted_ok taken
              exact StockOperator.effects_of_isConst (free op List.mem_cons_self) executed

theorem Evaluates.castBatch_of_no_effects (run : Evaluates w s.resetBudget program after []) :
    s.castBatch program w = (after, w, .ok ⟨0, 0, 0, [], after.stack⟩) := by
  have paying : pay s.limits 0 w = (.ok 0, w) := by
    simp only [pay, gt_iff_lt, UInt64.lt_irrefl, decide_false, Bool.and_false, Bool.false_eq_true,
      if_false]
  have free : (Pending.none.absorb ([] : List (SideEffect World))).media = 0 := rfl
  rw [run.castBatch]
  simp only [free, paying]
  rfl

/-- Batches whose runs ask for the same and end alike but for their counts have the same outcome. -/
theorem Evaluates.castBatch_counting (run : Evaluates w s.resetBudget program after effects)
    {n : Nat} (other : Evaluates w t.resetBudget rest (after.counting n) effects)
    (limits : t.limits = s.limits) {report : CastReport}
    (accepted : s.castBatch program w = (after, w', .ok report)) :
    t.castBatch rest w = (after.counting n, w', .ok report) := by
  rw [run.castBatch] at accepted
  rw [other.castBatch, limits]
  rcases paying : pay s.limits (Pending.none.absorb effects).media w with ⟨mishap | drawn, paid⟩
  · simp only [paying, Prod.mk.injEq, reduceCtorEq, and_false] at accepted
  · simp only [paying, Prod.mk.injEq, true_and] at accepted ⊢
    exact accepted

end

end CastingState

/-- A prelude without spells may be cast apart. If a program is accepted, so are its prelude and
then the rest: the prelude leaves the world as it is, the rest is reported as the whole was and
leaves the same stack and world, and their counts of operators add up. If both are accepted and
their operators fit one budget, so is the whole. -/
theorem preludes_can_be_cast_apart (s : CastingState) (w : World)
    (prelude rest : List (Instruction StockOperator)) (free : SpellFree prelude) :
    (∀ after w' report,
      s.castBatch (StockOperator.program (prelude ++ rest)) w = (after, w', .ok report) →
      ∃ mid first last, s.castBatch (StockOperator.program prelude) w = (mid, w, .ok first) ∧
        mid.castBatch (StockOperator.program rest) w = (last, w', .ok report) ∧
        after = last.counting (mid.evaluated + last.evaluated)) ∧
    ∀ mid between first last w' report,
      s.castBatch (StockOperator.program prelude) w = (mid, between, .ok first) →
      mid.castBatch (StockOperator.program rest) between = (last, w', .ok report) →
      operatorCount (prelude ++ rest) ≤ s.limits.maxOpCount.toNat →
      s.castBatch (StockOperator.program (prelude ++ rest)) w =
        (last.counting (mid.evaluated + last.evaluated), w', .ok report) := by
  have whole : (StockOperator.program (prelude ++ rest) : List (Instruction (Operator World))) =
      StockOperator.program prelude ++ StockOperator.program rest := List.map_append
  constructor
  · intro after w' report accepted
    rw [whole] at accepted
    obtain ⟨effects, paid, accepts⟩ := CastingState.castBatch_ok accepted
    obtain ⟨mid, asked, later, front, back, rfl⟩ := accepts.run.of_append
    obtain rfl := front.effects_of_spellFree free
    have budget := Nat.le_trans back.operatorCount_le (Nat.sub_le_sub_left (Nat.zero_le _) _)
    have again := back.counting 0 budget
    refine ⟨mid, _, _, front.castBatch_of_no_effects,
      accepts.run.castBatch_counting (t := mid) again front.limits accepted, ?_⟩
    simp only [CastingState.counting, Nat.zero_add, ← back.evaluated]
  · intro mid between first last w' report preluded cast budget
    obtain ⟨effects, paid, accepts⟩ := CastingState.castBatch_ok preluded
    have front := accepts.run
    obtain rfl := front.effects_of_spellFree free
    rw [front.castBatch_of_no_effects] at preluded
    cases preluded
    obtain ⟨later, paid, rested⟩ := CastingState.castBatch_ok cast
    have back := rested.run
    have spent := front.evaluated
    have counted := back.evaluated
    simp only [CastingState.resetBudget, Nat.zero_add, operatorCount_program] at spent counted
    -- the rest of the budget is what the prelude leaves of it
    have within : operatorCount (StockOperator.program rest : List (Instruction (Operator World))) ≤
        mid.limits.maxOpCount.toNat - mid.evaluated := by
      rw [operatorCount_program, spent, front.limits]
      simp only [operatorCount, List.countP_append] at budget ⊢
      exact Nat.le_sub_of_add_le' budget
    have joint := front.append (back.counting _ within)
    rw [operatorCount_program, ← counted, List.nil_append, ← whole] at joint
    exact back.castBatch_counting (t := s) joint front.limits.symm cast

/-- The reference to the dust is taken out of a list before the dust recharges the battery; with a
budget for three operators that may be done apart or at once. -/
theorem workbench_prelude_is_cast_apart :
    let prelude : List (Instruction StockOperator) :=
      [.literal (.entity ⟨.ofNat 1, .item, "Dust"⟩), .operator .singleton, .literal (.double 0),
        .operator .index]
    let state : CastingState := .new { Limits.standard with maxOpCount := 3 } []
    SpellFree prelude ∧
    ∃ mid first last after w' report,
      state.castBatch (StockOperator.program prelude) World.workbench =
        (mid, World.workbench, .ok first) ∧
      mid.castBatch (StockOperator.program [.operator .recharge]) World.workbench =
        (last, w', .ok report) ∧
      operatorCount (prelude ++ [.operator .recharge]) ≤ state.limits.maxOpCount.toNat ∧
      state.castBatch (StockOperator.program (prelude ++ [.operator .recharge])) World.workbench =
        (after, w', .ok report) ∧
      after = last.counting (mid.evaluated + last.evaluated) := by
  intro prelude state
  have free : SpellFree prelude := by
    intro op member
    simp only [prelude, List.mem_cons, Instruction.operator.injEq, reduceCtorEq, List.not_mem_nil,
      or_false, false_or] at member
    rcases member with rfl | rfl <;> rfl
  obtain ⟨apart, joined⟩ :=
    preludes_can_be_cast_apart state .workbench prelude [.operator .recharge] free
  obtain ⟨after, w', report, cast⟩ := CastingState.exists_accepted state
    (StockOperator.program (prelude ++ [.operator .recharge])) World.workbench (by decide +kernel)
  obtain ⟨mid, first, last, preluded, rested, -⟩ := apart after w' report cast
  have budget : operatorCount (prelude ++ [.operator .recharge]) ≤
      state.limits.maxOpCount.toNat := by decide
  have whole := joined mid _ first last w' report preluded rested budget
  exact ⟨free, mid, first, last, _, w', report, preluded, rested, budget, whole, rfl⟩

end Spellcasting
