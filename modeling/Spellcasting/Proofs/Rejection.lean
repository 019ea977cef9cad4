import Spellcasting.Proofs.Evaluation
import Spellcasting.Scenario.Outcome

/-! # Rejected casts

A batch starts by restarting the count of evaluated operators, so all that it can see of the casts
before it is the stack, the limits and the world. A rejected batch keeps all three. A run of many
batches therefore goes on after a rejected one as if that one had never been tried.
-/

namespace Spellcasting

/-- What a batch answers. -/
abbrev CastResult := Except CastFailure CastReport

namespace CastingState

/-- Casts programs one after the other. The last answer has the result of each. -/
def castBatches (s : CastingState) (w : World) :
    List (List (Instruction (Operator World))) → CastingState × World × List CastResult
  | [] => (s, w, [])
  | program :: rest =>
    let (mid, between, result) := s.castBatch program w
    let (after, w', results) := mid.castBatches between rest
    (after, w', result :: results)

/-- The programs of a run whose result was not a rejection. -/
def accepted (programs : List (List (Instruction (Operator World)))) (results : List CastResult) :
    List (List (Instruction (Operator World))) :=
  (programs.zip results).filterMap fun (program, result) =>
    if result.isOk then some program else none

theorem accepted_cons_ok (program : List (Instruction (Operator World))) (programs)
    (report : CastReport) (results : List CastResult) :
    accepted (program :: programs) (.ok report :: results) =
      program :: accepted programs results := rfl

theorem accepted_cons_error (program : List (Instruction (Operator World))) (programs)
    (failure : CastFailure) (results : List CastResult) :
    accepted (program :: programs) (.error failure :: results) = accepted programs results := rfl

theorem castBatches_cons {s mid : CastingState} {w between : World} {program} {result : CastResult}
    (cast : s.castBatch program w = (mid, between, result))
    (programs : List (List (Instruction (Operator World)))) :
    s.castBatches w (program :: programs) =
      ((mid.castBatches between programs).1, (mid.castBatches between programs).2.1,
        result :: (mid.castBatches between programs).2.2) := by
  simp only [castBatches, cast]

variable {ω : Type} [CastingEnv ω]

theorem castBatch_resetBudget (s : CastingState) (program : List (Instruction (Operator ω)))
    (w : ω) : s.resetBudget.castBatch program w = s.castBatch program w := rfl

theorem castBatch_of_resetBudget_eq {s t : CastingState} (same : s.resetBudget = t.resetBudget)
    (program : List (Instruction (Operator ω))) (w : ω) :
    s.castBatch program w = t.castBatch program w := by
  rw [← castBatch_resetBudget s, same, castBatch_resetBudget]

theorem resetBudget_of_rejected {s after : CastingState} {program} {w w' : ω}
    {failure : CastFailure} (h : s.castBatch program w = (after, w', .error failure)) :
    after.resetBudget = s.resetBudget := by
  obtain ⟨stack, limits, -⟩ := castBatch_error h
  simp only [resetBudget, stack, limits]

theorem castBatches_of_resetBudget_eq {s t : CastingState} (same : s.resetBudget = t.resetBudget)
    (w : World) (programs : List (List (Instruction (Operator World)))) :
    (s.castBatches w programs).2 = (t.castBatches w programs).2 ∧
      (s.castBatches w programs).1.resetBudget = (t.castBatches w programs).1.resetBudget := by
  cases programs with
  | nil => exact ⟨rfl, same⟩
  | cons program rest =>
      simp only [castBatches, castBatch_of_resetBudget_eq same, and_self]

/-- Leaving out the rejected batches of a run keeps the other results, the world and all that a
later batch can see of the state. -/
theorem castBatches_accepted (s : CastingState) (w : World)
    (programs : List (List (Instruction (Operator World)))) :
    let whole := s.castBatches w programs
    let alone := s.castBatches w (accepted programs whole.2.2)
    alone.1.resetBudget = whole.1.resetBudget ∧ alone.2.1 = whole.2.1 ∧
      alone.2.2 = whole.2.2.filter Except.isOk := by
  induction programs generalizing s w with
  | nil => exact ⟨rfl, rfl, rfl⟩
  | cons program rest ih =>
      rcases cast : s.castBatch program w with ⟨mid, between, result⟩
      obtain ⟨state, world, results⟩ := ih mid between
      cases result with
      | ok report =>
          simp only [castBatches_cons cast, accepted_cons_ok]
          exact ⟨state, world, congrArg (.ok report :: ·) results⟩
      | error failure =>
          -- The rest runs from a state that shows the same stack and limits, in the same world.
          have same := resetBudget_of_rejected cast
          obtain ⟨-, -, rfl⟩ := World.castBatch_error cast
          simp only [castBatches_cons cast, accepted_cons_error]
          have unseen := castBatches_of_resetBudget_eq same between
            (accepted rest (mid.castBatches between rest).2.2)
          rw [← unseen.1, ← unseen.2]
          exact ⟨state, world, results⟩

end CastingState

theorem Prepared.run_mishap {p : Prepared} {limits : Limits} {failure : CastFailure}
    {summary : WorldSummary} (h : p.run limits = .mishap failure summary) :
    summary = p.summarize p.world := by
  simp only [run] at h
  split at h
  · cases h
  · next rejected =>
      obtain ⟨-, -, rfl⟩ := World.castBatch_error rejected
      simp only [Outcome.mishap.injEq] at h
      exact h.2.symm

/-- A rejected cast leaves no trace: stack and world are as before, a run of casts goes on as if it
had never been tried, and the outcome of a rejected scenario shows the world as it was prepared. -/
theorem rejected_casts_leave_no_trace :
    (∀ (s after : CastingState) (program : List (Instruction (Operator World))) (w w' : World)
      (failure : CastFailure), s.castBatch program w = (after, w', .error failure) →
      after.stack = s.stack ∧ w' = w) ∧
    (∀ (s : CastingState) (w : World) (programs : List (List (Instruction (Operator World)))),
      let (after, w', results) := s.castBatches w programs
      let (alone, world, kept) := s.castBatches w (CastingState.accepted programs results)
      kept = results.filter Except.isOk ∧ alone.stack = after.stack ∧ world = w') ∧
    (∀ (p : Prepared) (limits : Limits) (failure : CastFailure) (summary : WorldSummary),
      p.run limits = .mishap failure summary → summary = p.summarize p.world) := by
  refine ⟨fun s after program w w' failure rejected => ?_, fun s w programs => ?_,
    fun p limits failure summary rejected => Prepared.run_mishap rejected⟩
  · obtain ⟨stack, -, world⟩ := World.castBatch_error rejected
    exact ⟨stack, world⟩
  · obtain ⟨state, world, results⟩ := CastingState.castBatches_accepted s w programs
    have stack := congrArg CastingState.stack state
    exact ⟨results, stack, world⟩

/-- A list operator that pops its arguments and then refuses them, in a batch and in a scenario. -/
theorem refused_append_leaves_no_trace :
    (∃ after failure,
      (⟨[.bool true], .standard, 5⟩ : CastingState).castBatch
          [.literal .null, .operator StockOperator.append.toOperator] World.initial =
        (after, World.initial, .error failure) ∧ after.stack = [.bool true]) ∧
    ∃ failure summary,
      (⟨World.initial, [], [.literal .null, .literal .null, .operator .append]⟩ : Prepared).run
          .standard = .mishap failure summary ∧
        summary = Prepared.summarize ⟨World.initial, [], []⟩ World.initial := by
  obtain ⟨batches, -, scenarios⟩ := rejected_casts_leave_no_trace
  refine ⟨⟨_, _, rfl, ?_⟩, ⟨_, _, rfl, ?_⟩⟩
  · exact (batches ⟨[.bool true], .standard, 5⟩ _
      [.literal .null, .operator StockOperator.append.toOperator] World.initial _ _ rfl).1
  · exact scenarios ⟨World.initial, [], [.literal .null, .literal .null, .operator .append]⟩
      .standard _ _ rfl

end Spellcasting
