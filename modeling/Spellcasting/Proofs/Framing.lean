import Spellcasting.Proofs.Evaluation
import Spellcasting.Proofs.StockPrograms

/-! # Casts work on the top of the stack

A cast of adapters that starts on top of further iotas, with that much more room, does what it does
without them and leaves them where they lie. Only a cast that runs out of arguments can tell the
difference. So a run is moved onto another stack step by step, and its mishap with it; an overflow
then states the greater limit.
-/

namespace Spellcasting

/-- Limits with room for so many more iotas. -/
def Limits.withRoom (limits : Limits) (more : Nat) : Limits :=
  { limits with maxStackDepth := .ofNat (limits.maxStackDepth.toNat + more) }

theorem Limits.toNat_withRoom {limits : Limits} {more : Nat}
    (room : limits.maxStackDepth.toNat + more < UInt64.size) :
    (limits.withRoom more).maxStackDepth.toNat = limits.maxStackDepth.toNat + more :=
  UInt64.toNat_ofNat_of_lt room

/-- The same mishap under other limits: an overflow of the stack states the limit it is held to. -/
inductive Mishap.UpToLimit (limits other : Limits) : Mishap → Mishap → Prop where
  | same (m) : UpToLimit limits other m m
  | overflow : UpToLimit limits other (.stackOverflow limits.maxStackDepth)
      (.stackOverflow other.maxStackDepth)

/-- A program of adapters as one of operators. -/
def Adapter.program {ω : Type} (steps : List (Instruction (Adapter ω))) :
    List (Instruction (Operator ω)) :=
  steps.map (Instruction.map .adapted)

namespace CastingState

variable {ω : Type}

/-- A state on top of further iotas, with room for them. -/
def onTopOf (s : CastingState) (base : List Iota) : CastingState :=
  ⟨base ++ s.stack, s.limits.withRoom base.length, s.evaluated⟩

section

variable {w : ω} {s after : CastingState} {base : List Iota}
  {instruction : Instruction (Adapter ω)} {steps : List (Instruction (Adapter ω))}
  {effects : List (SideEffect ω)} {mishap : Mishap} {place : Nat}

theorem leave_onTopOf (s : CastingState) (base stack : List Iota) :
    (s.onTopOf base).leave (base ++ stack) = (s.leave stack).onTopOf base := rfl

theorem StepsTo.onTopOf_ok (h : StepsTo w s (instruction.map .adapted) after (.ok effects))
    (room : s.limits.maxStackDepth.toNat + base.length < UInt64.size) :
    StepsTo w (s.onTopOf base) (instruction.map .adapted) (after.onTopOf base) (.ok effects) := by
  have depth := Limits.toNat_withRoom room
  cases instruction with
  | literal iota =>
      cases h with
      | push fits =>
          have pushed : (s.onTopOf base).stack.length <
              (s.onTopOf base).limits.maxStackDepth.toNat := by
            simp only [onTopOf, depth, List.length_append]
            omega
          simpa only [onTopOf, Instruction.map, List.append_assoc] using
            StepsTo.push (w := w) pushed
  | operator a =>
      cases h with
      | @apply _ rest args results effects left whole count executed fits =>
          have below : (s.onTopOf base).stack = (base ++ rest) ++ args := by
            simp only [onTopOf, whole, List.append_assoc]
          have fitting : ((base ++ rest) ++ results).length ≤
              (s.onTopOf base).limits.maxStackDepth.toNat := by
            simp only [List.length_append] at fits
            simp only [onTopOf, depth, List.length_append]
            omega
          rw [← leave_onTopOf, ← List.append_assoc]
          exact .apply left below count executed fitting

/-- Short of arguments apart, a mishap is carried over. -/
theorem StepsTo.onTopOf_error (h : StepsTo w s (instruction.map .adapted) after (.error mishap))
    (room : s.limits.maxStackDepth.toNat + base.length < UInt64.size)
    (enough : mishap.kind ≠ .notEnoughArgs) :
    ∃ other, mishap.UpToLimit s.limits (s.limits.withRoom base.length) other ∧
      StepsTo w (s.onTopOf base) (instruction.map .adapted) (after.onTopOf base)
        (.error other) := by
  have depth := Limits.toNat_withRoom room
  cases instruction with
  | literal iota =>
      cases h with
      | pushOver full =>
          have past : (s.onTopOf base).limits.maxStackDepth.toNat ≤
              (s.onTopOf base).stack.length := by
            simp only [onTopOf, depth, List.length_append]
            omega
          refine ⟨_, .overflow, ?_⟩
          simpa only [onTopOf, Instruction.map, List.append_assoc] using
            StepsTo.pushOver (w := w) past
  | operator a =>
      cases h with
      | tooDeep spent => exact ⟨_, .same _, .tooDeep spent⟩
      | tooFew left few => exact absurd rfl enough
      | refuse left whole count executed =>
          refine ⟨_, .same _, ?_⟩
          rw [← leave_onTopOf]
          refine .refuse left ?_ count executed
          simp only [onTopOf, whole, List.append_assoc]
      | @applyOver _ rest args results effects left whole count executed tall =>
          have below : (s.onTopOf base).stack = (base ++ rest) ++ args := by
            simp only [onTopOf, whole, List.append_assoc]
          have past : (s.onTopOf base).limits.maxStackDepth.toNat <
              ((base ++ rest) ++ results).length := by
            simp only [List.length_append] at tall
            simp only [onTopOf, depth, List.length_append]
            omega
          refine ⟨_, .overflow, ?_⟩
          rw [← leave_onTopOf, ← List.append_assoc]
          exact .applyOver left below count executed past

theorem Evaluates.onTopOf (run : Evaluates w s (Adapter.program steps) after effects)
    (room : s.limits.maxStackDepth.toNat + base.length < UInt64.size) :
    Evaluates w (s.onTopOf base) (Adapter.program steps) (after.onTopOf base) effects := by
  induction steps generalizing s effects with
  | nil =>
      cases run
      exact .done _
  | cons instruction rest ih =>
      cases run with
      | step taken run =>
          have moved := (stepsTo_iff.mpr taken).onTopOf_ok room
          exact .step moved.step (ih run (step_limits taken ▸ room))

theorem Stops.onTopOf (stop : Stops w s (Adapter.program steps) place after mishap)
    (room : s.limits.maxStackDepth.toNat + base.length < UInt64.size)
    (enough : mishap.kind ≠ .notEnoughArgs) :
    ∃ other, mishap.UpToLimit s.limits (s.limits.withRoom base.length) other ∧
      Stops w (s.onTopOf base) (Adapter.program steps) place (after.onTopOf base) other := by
  induction steps generalizing s place with
  | nil => cases stop
  | cons instruction rest ih =>
      cases stop with
      | here taken =>
          obtain ⟨other, same, moved⟩ := (stepsTo_iff.mpr taken).onTopOf_error room enough
          exact ⟨other, same, .here moved.step⟩
      | later taken stop =>
          have moved := (stepsTo_iff.mpr taken).onTopOf_ok room
          have kept := step_limits taken
          obtain ⟨other, same, stop⟩ := ih stop (kept ▸ room)
          exact ⟨other, kept ▸ same, .later moved.step stop⟩

end

end CastingState

/-- Casts of adapters work on the top of the stack: on top of further iotas, with that much more
room, a cast that is accepted does the same and leaves them under its stack, and one that is
rejected, unless for want of arguments, is rejected at the same place by the same mishap. -/
theorem casts_work_on_the_top {ω : Type} [CastingEnv ω] (s : CastingState) (base : List Iota)
    (steps : List (Instruction (Adapter ω))) (w : ω)
    (room : s.limits.maxStackDepth.toNat + base.length < UInt64.size) :
    let program := Adapter.program steps
    (∀ after w' report, s.castBatch program w = (after, w', .ok report) →
      (s.onTopOf base).castBatch program w =
        (after.onTopOf base, w', .ok { report with stack := base ++ report.stack })) ∧
    ∀ after w' failure, s.castBatch program w = (after, w', .error failure) →
      failure.mishap.kind ≠ .notEnoughArgs →
      ∃ mishap, failure.mishap.UpToLimit s.limits (s.limits.withRoom base.length) mishap ∧
        (s.onTopOf base).castBatch program w =
          (after.onTopOf base, w', .error ⟨failure.index, mishap⟩) := by
  intro program
  rcases CastingState.evaluates_or_stops w s.resetBudget program with
    ⟨reached, effects, run⟩ | ⟨place, reached, m, stop⟩
  · have moved : CastingState.Evaluates w (s.onTopOf base).resetBudget program
        (reached.onTopOf base) effects := run.onTopOf room
    -- the payment asks the limits only whether it is required
    have payment : CastingState.pay (s.onTopOf base).limits =
        CastingState.pay (ω := ω) s.limits := rfl
    rw [run.castBatch, moved.castBatch, payment]
    dsimp only
    rcases CastingState.pay s.limits (Pending.none.absorb effects).media w with
      ⟨mishap | drawn, paid⟩
    · refine ⟨fun after w' report cast => (nomatch cast), fun after w' failure cast _ => ?_⟩
      cases cast
      exact ⟨_, .same _, rfl⟩
    · refine ⟨fun after w' report cast => ?_, fun after w' failure cast => (nomatch cast)⟩
      cases cast
      rfl
  · rw [stop.castBatch]
    refine ⟨fun after w' report cast => (nomatch cast), fun after w' failure cast enough => ?_⟩
    cases cast
    obtain ⟨other, same, halt⟩ := stop.onTopOf room enough
    have moved : CastingState.Stops w (s.onTopOf base).resetBudget program place
        (reached.onTopOf base) other := halt
    rw [moved.castBatch]
    exact ⟨other, same, rfl⟩

/-- On top of two iotas, the cast at the workbench leaves them alone, and a stack that may hold one
iota of its own still overflows at the second, now past three. -/
theorem workbench_cast_works_on_the_top :
    (∃ after w' report,
      (CastingState.new .standard []).castBatch
        (Adapter.program (StockOperator.adapters World.workbenchSteps)) World.workbench =
          (after, w', .ok report) ∧
      ((CastingState.new .standard []).onTopOf [.null, .garbage]).castBatch
          (Adapter.program (StockOperator.adapters World.workbenchSteps)) World.workbench =
        (after.onTopOf [.null, .garbage], w',
          .ok { report with stack := [.null, .garbage] ++ report.stack })) ∧
    ∃ after failure mishap,
      (CastingState.new { Limits.standard with maxStackDepth := 1 } []).castBatch
        (Adapter.program [.literal .null, .literal .null]) World.workbench =
          (after, World.workbench, .error failure) ∧
      failure.mishap = .stackOverflow 1 ∧ failure.mishap.kind ≠ .notEnoughArgs ∧
      ((CastingState.new { Limits.standard with maxStackDepth := 1 } []).onTopOf
          [.null, .garbage]).castBatch (Adapter.program [.literal .null, .literal .null])
          World.workbench =
        (after.onTopOf [.null, .garbage], World.workbench, .error ⟨failure.index, mishap⟩) ∧
      failure.mishap.UpToLimit { Limits.standard with maxStackDepth := 1 }
        { Limits.standard with maxStackDepth := 3 } mishap := by
  constructor
  · obtain ⟨after, w', report, cast⟩ := CastingState.exists_accepted (.new .standard [])
      (Adapter.program (StockOperator.adapters World.workbenchSteps)) World.workbench
      (by decide +kernel)
    exact ⟨after, w', report, cast,
      (casts_work_on_the_top _ [.null, .garbage] _ _ (by decide)).1 _ _ _ cast⟩
  · obtain ⟨mishap, same, cast⟩ :=
      (casts_work_on_the_top (.new { Limits.standard with maxStackDepth := 1 } [])
        [.null, .garbage] [.literal .null, .literal .null] World.workbench (by decide)).2 _ _ _ rfl
        (by decide)
    exact ⟨_, _, mishap, rfl, rfl, by decide, cast, same⟩

end Spellcasting
