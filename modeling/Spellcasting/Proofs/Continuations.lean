import Spellcasting.Operator.Stock
import Spellcasting.Proofs.Stepwise

/-! # Programs that go on

A program made of two parts runs the first part and then, from where that ended, the second. What
stops the first part stops the whole at the same place. A first part that is only too dear makes the
whole too dear as well, as costs never go down, unless the second part is stopped before anybody
pays.
-/

namespace Spellcasting

namespace SideEffect

variable {ω : Type}

theorem cost_append (first later : List (SideEffect ω)) :
    cost (first ++ later) = cost first + cost later := by
  simp only [cost, charges, List.filterMap_append, List.map_append, List.sum_append]

theorem price_le_append (first later : List (SideEffect ω)) :
    price first ≤ price (first ++ later) := by
  apply UInt64.le_iff_toNat_le.mpr
  rw [toNat_price, toNat_price, cost_append]
  omega

end SideEffect

namespace CastingState

section

variable {ω : Type} {w : ω} {s mid after : CastingState}
  {first second : List (Instruction (Operator ω))} {asked later : List (SideEffect ω)}
  {place : Nat} {mishap : Mishap}

theorem Evaluates.append (run : Evaluates w s first mid asked)
    (rest : Evaluates w mid second after later) :
    Evaluates w s (first ++ second) after (asked ++ later) := by
  induction run with
  | done => exact rest
  | step taken _ ih =>
      rw [List.append_assoc]
      exact .step taken (ih rest)

theorem Evaluates.of_append {effects : List (SideEffect ω)}
    (run : Evaluates w s (first ++ second) after effects) :
    ∃ mid asked later, Evaluates w s first mid asked ∧ Evaluates w mid second after later ∧
      effects = asked ++ later := by
  induction first generalizing s effects with
  | nil => exact ⟨s, [], effects, .done s, run, rfl⟩
  | cons instruction rest ih =>
      cases run with
      | @step _ next _ _ _ now _ taken run =>
          obtain ⟨mid, asked, later, front, back, rfl⟩ := ih run
          exact ⟨mid, now ++ asked, later, .step taken front, back, (List.append_assoc ..).symm⟩

theorem Stops.append (stop : Stops w s first place after mishap)
    (second : List (Instruction (Operator ω))) :
    Stops w s (first ++ second) place after mishap := by
  induction stop with
  | here taken => exact .here taken
  | later taken _ ih => exact .later taken ih

theorem Evaluates.stops (run : Evaluates w s first mid asked)
    (stop : Stops w mid second place after mishap) :
    Stops w s (first ++ second) (first.length + place) after mishap := by
  induction run with
  | done =>
      rw [List.length_nil, Nat.zero_add]
      exact stop
  | step taken _ ih =>
      rw [List.length_cons, Nat.add_right_comm]
      exact .later taken (ih stop)

end

section

variable {w : World} {s after : CastingState} {program : List (Instruction (Operator World))}
  {effects : List (SideEffect World)}

theorem Evaluates.castBatch_unpaid (run : Evaluates w s.resetBudget program after effects)
    (short : s.limits.requireMedia ∧ w.casterMedia < SideEffect.price effects) :
    (s.castBatch program w).2.2 =
      .error ⟨none, .notEnoughMedia (SideEffect.price effects) w.casterMedia⟩ := by
  have refused : pay s.limits (SideEffect.price effects) w =
      (.error (.notEnoughMedia (SideEffect.price effects) w.casterMedia), w) := by
    rw [w.paysBy.pay, if_pos short]
  rw [run.castBatch]
  simp only [Pending.absorb_none_media, refused]

theorem Evaluates.unpaid_of_castBatch (run : Evaluates w s.resetBudget program after effects)
    {failure : CastFailure} (rejected : (s.castBatch program w).2.2 = .error failure) :
    (s.limits.requireMedia ∧ w.casterMedia < SideEffect.price effects) ∧
      failure = ⟨none, .notEnoughMedia (SideEffect.price effects) w.casterMedia⟩ := by
  by_cases short : s.limits.requireMedia ∧ w.casterMedia < SideEffect.price effects
  · rw [run.castBatch_unpaid short] at rejected
    cases rejected
    exact ⟨short, rfl⟩
  · have paid := w.paysBy.pay s.limits (SideEffect.price effects)
    rw [if_neg short] at paid
    rw [run.castBatch] at rejected
    simp only [Pending.absorb_none_media, paid] at rejected
    cases rejected

end

end CastingState

/-- How a program fails that begins with a failed program of some length: by the same mishap at the
same place, for want of as much media or more, or for a mishap of its own further on. -/
inductive CastFailure.GoesOn (length : Nat) : CastFailure → CastFailure → Prop where
  | stopped (place mishap) : GoesOn length ⟨some place, mishap⟩ ⟨some place, mishap⟩
  | unpaid {required more} (available) : required ≤ more →
      GoesOn length ⟨none, .notEnoughMedia required available⟩
        ⟨none, .notEnoughMedia more available⟩
  | later {place} (required available mishap) : length ≤ place →
      GoesOn length ⟨none, .notEnoughMedia required available⟩ ⟨some place, mishap⟩

/-- Rejection is closed under going on: a program that is rejected is rejected with any other after
it, where it was stopped for the same reason at the same place, and where it could not be paid
because it is no cheaper now or is stopped behind its first part. -/
theorem rejected_programs_stay_rejected (s : CastingState) (w : World)
    (first second : List (Instruction (Operator World))) (failure : CastFailure)
    (rejected : (s.castBatch first w).2.2 = .error failure) :
    ∃ failure', (s.castBatch (first ++ second) w).2.2 = .error failure' ∧
      failure.GoesOn first.length failure' := by
  rcases CastingState.evaluates_or_stops w s.resetBudget first with
    ⟨mid, asked, run⟩ | ⟨place, mid, mishap, stop⟩
  · obtain ⟨⟨required, short⟩, rfl⟩ := run.unpaid_of_castBatch rejected
    rcases CastingState.evaluates_or_stops w mid second with
      ⟨after, later, rest⟩ | ⟨place, after, mishap, stop⟩
    · have dearer := SideEffect.price_le_append asked later
      have whole :
          CastingState.Evaluates w s.resetBudget (first ++ second) after (asked ++ later) :=
        run.append rest
      exact ⟨_, whole.castBatch_unpaid ⟨required, UInt64.lt_of_lt_of_le short dearer⟩,
        .unpaid w.casterMedia dearer⟩
    · rw [(run.stops stop).castBatch]
      exact ⟨_, rfl, .later _ _ mishap (Nat.le_add_right ..)⟩
  · rw [stop.castBatch] at rejected
    cases rejected
    rw [(stop.append second).castBatch]
    exact ⟨_, rfl, .stopped place mishap⟩

/-- A caster without media cannot pay one toll and not two either, nor does it help to be stopped
after the first, which empties the stack; where an argument lacks, it does not help to go on. -/
theorem unpaid_toll_stays_rejected :
    let toll : Instruction (Operator World) :=
      .operator (.direct fun _ _ => ([], .ok [.consumeMedia 1]))
    let size : Instruction (Operator World) := .operator StockOperator.listSize.toOperator
    let cast (program : List (Instruction (Operator World))) :=
      ((CastingState.new .standard []).castBatch program World.initial).2.2
    (cast [toll] = .error ⟨none, .notEnoughMedia 1 0⟩ ∧
      ∀ second ∈ [[toll], [size]], ∃ failure, cast ([toll] ++ second) = .error failure ∧
        CastFailure.GoesOn 1 ⟨none, .notEnoughMedia 1 0⟩ failure) ∧
    cast [size] = .error ⟨some 0, .tooFew 1 0⟩ ∧
      ∃ failure, cast ([size] ++ [toll]) = .error failure ∧
        CastFailure.GoesOn 1 ⟨some 0, .tooFew 1 0⟩ failure := by
  intro toll size cast
  refine ⟨⟨rfl, fun second _ => ?_⟩, rfl, ?_⟩
  · exact rejected_programs_stay_rejected (.new .standard []) .initial [toll] second _ rfl
  · exact rejected_programs_stay_rejected (.new .standard []) .initial [size] [toll] _ rfl

end Spellcasting
