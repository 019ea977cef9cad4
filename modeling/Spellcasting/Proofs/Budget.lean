import Spellcasting.Proofs.Tally

/-! # The budget over all uses

A casting state is used by pushing iotas, evaluating operators, restarting the count and casting
batches, in any order and against any worlds. Its history has an entry for every restart and for
every operator that was to be evaluated, within a batch or outside. The state counts just the
entries of operators behind the latest restart, whatever came of them, and the budget refuses an
operator exactly where that many have used it up.
-/

namespace Spellcasting

variable {ω : Type}

namespace CastingState

/-- One use of a casting state, with the world it is made against. -/
inductive Call (ω : Type) where
  | push (iota : Iota)
  | evaluate (op : Operator ω) (w : ω)
  | resetBudget
  | castBatch (program : List (Instruction (Operator ω))) (w : ω)

/-- An operator that was to be evaluated, and what came of it. -/
structure Attempt (ω : Type) where
  before : CastingState
  op : Operator ω
  world : ω
  after : CastingState
  result : Except Mishap (List (SideEffect ω))

/-- An entry in the history of a casting state. -/
inductive Event (ω : Type) where
  | restart
  | attempt (a : Attempt ω)

def Event.isAttempt : Event ω → Bool
  | restart => false
  | attempt _ => true

/-- How many operators were to be evaluated since the latest restart, refused ones too. -/
def attemptsSinceRestart (history : List (Event ω)) : Nat :=
  (history.reverse.takeWhile Event.isAttempt).length

/-- The operators that a program gets to evaluate, up to its first mishap. -/
def attempts (s : CastingState) (w : ω) : List (Instruction (Operator ω)) → List (Attempt ω)
  | [] => []
  | .literal iota :: rest =>
    match s.push iota with
    | (_, .error _) => []
    | (after, .ok ()) => after.attempts w rest
  | .operator op :: rest =>
    match s.evaluate op w with
    | (after, .error mishap) => [⟨s, op, w, after, .error mishap⟩]
    | (after, .ok asked) => ⟨s, op, w, after, .ok asked⟩ :: after.attempts w rest

section

variable [CastingEnv ω]

/-- The state after a call. -/
def afterCall (s : CastingState) : Call ω → CastingState
  | .push iota => (s.push iota).1
  | .evaluate op w => (s.evaluate op w).1
  | .resetBudget => s.resetBudget
  | .castBatch program w => (s.castBatch program w).1

/-- What a call adds to the history; a batch restarts the count when it is entered. -/
def events (s : CastingState) : Call ω → List (Event ω)
  | .push _ => []
  | .evaluate op w => [.attempt ⟨s, op, w, (s.evaluate op w).1, (s.evaluate op w).2⟩]
  | .resetBudget => [.restart]
  | .castBatch program w => .restart :: (s.resetBudget.attempts w program).map .attempt

/-- The history of a state that is used by one call after the other. -/
def history (s : CastingState) : List (Call ω) → List (Event ω)
  | [] => []
  | call :: rest => s.events call ++ (s.afterCall call).history rest

end

/-! ## The count along a history -/

section

@[simp] theorem attemptsSinceRestart_restart (past : List (Event ω)) :
    attemptsSinceRestart (past ++ [.restart]) = 0 := by
  simp only [attemptsSinceRestart, List.reverse_append, List.reverse_singleton,
    List.singleton_append, List.takeWhile_cons, Event.isAttempt, Bool.false_eq_true, if_false,
    List.length_nil]

@[simp] theorem attemptsSinceRestart_attempt (past : List (Event ω)) (a : Attempt ω) :
    attemptsSinceRestart (past ++ [.attempt a]) = attemptsSinceRestart past + 1 := by
  simp only [attemptsSinceRestart, List.reverse_append, List.reverse_singleton,
    List.singleton_append, List.takeWhile_cons, Event.isAttempt, if_true, List.length_cons]

/-- A history under given limits and the count that it leads to: restarts take the count back to
zero, and every operator is evaluated at the count that has been reached by then. -/
inductive Counts (limits : Limits) : List (Event ω) → Nat → Prop where
  | start : Counts limits [] 0
  | restart {past count} : Counts limits past count → Counts limits (past ++ [.restart]) 0
  | attempt {past} {a : Attempt ω} :
      Counts limits past a.before.evaluated → a.before.limits = limits →
      a.before.evaluate a.op a.world = (a.after, a.result) →
      Counts limits (past ++ [.attempt a]) (a.before.evaluated + 1)

variable {limits : Limits} {past earlier later : List (Event ω)} {count : Nat} {a : Attempt ω}

theorem Counts.eq (h : Counts limits past count) : count = attemptsSinceRestart past := by
  induction h with
  | start => rfl
  | restart _ _ => exact (attemptsSinceRestart_restart _).symm
  | attempt _ _ _ ih => rw [attemptsSinceRestart_attempt, ← ih]

/-- An operator in a history was evaluated at the count that the entries before it lead to. -/
theorem Counts.attempted (h : Counts limits past count)
    (split : past = earlier ++ .attempt a :: later) :
    Counts limits earlier a.before.evaluated ∧ a.before.limits = limits ∧
      a.before.evaluate a.op a.world = (a.after, a.result) := by
  induction h generalizing later with
  | start => simp at split
  | restart _ ih =>
      rcases later.eq_nil_or_concat with rfl | ⟨between, last, rfl⟩
      · cases (List.append_inj' split rfl).2
      · rw [List.concat_eq_append, ← List.cons_append, ← List.append_assoc] at split
        exact ih (List.append_inj' split rfl).1
  | attempt before limits made ih =>
      rcases later.eq_nil_or_concat with rfl | ⟨between, last, rfl⟩
      · obtain ⟨rfl, same⟩ := List.append_inj' split rfl
        cases same
        exact ⟨before, limits, made⟩
      · rw [List.concat_eq_append, ← List.cons_append, ← List.append_assoc] at split
        exact ih (List.append_inj' split rfl).1

end

/-! ## What each call does to the count -/

section

variable {past : List (Event ω)} {w : ω} {s mid after : CastingState} {op : Operator ω}
  {result : Except Mishap (List (SideEffect ω))} {program : List (Instruction (Operator ω))}
  {effects : List (SideEffect ω)} {place : Nat} {mishap : Mishap}

theorem evaluated_of_evaluate (made : s.evaluate op w = (after, result)) :
    after.evaluated = s.evaluated + 1 := by
  have taken : s.step (.operator op) w = (after, result) := made
  cases stepsTo_iff.mpr taken <;> rfl

theorem limits_of_evaluate (made : s.evaluate op w = (after, result)) :
    after.limits = s.limits := by
  have taken : s.step (.operator op) w = (after, result) := made
  exact step_limits taken

theorem Counts.evaluate (h : Counts s.limits past s.evaluated)
    (made : s.evaluate op w = (after, result)) :
    Counts after.limits (past ++ [.attempt ⟨s, op, w, after, result⟩]) after.evaluated := by
  rw [evaluated_of_evaluate made, limits_of_evaluate made]
  exact .attempt h rfl made

theorem attempts_push {iota : Iota} (taken : s.step (.literal iota) w = (mid, .ok effects))
    (rest : List (Instruction (Operator ω))) :
    s.attempts w (.literal iota :: rest) = mid.attempts w rest := by
  rcases pushed : s.push iota with ⟨next, full | ⟨⟩⟩
  · simp only [step, pushed] at taken
    cases taken
  · simp only [step, pushed] at taken
    cases taken
    simp only [attempts, pushed]

theorem attempts_pushOver {iota : Iota} (taken : s.step (.literal iota) w = (mid, .error mishap))
    (rest : List (Instruction (Operator ω))) : s.attempts w (.literal iota :: rest) = [] := by
  rcases pushed : s.push iota with ⟨next, full | ⟨⟩⟩
  · simp only [attempts, pushed]
  · simp only [step, pushed] at taken
    cases taken

theorem Counts.step {instruction : Instruction (Operator ω)}
    (h : Counts s.limits past s.evaluated) (taken : s.step instruction w = (mid, .ok effects)) :
    ∃ entries, (∀ rest, s.attempts w (instruction :: rest) = entries ++ mid.attempts w rest) ∧
      Counts mid.limits (past ++ entries.map .attempt) mid.evaluated := by
  cases instruction with
  | literal iota =>
      refine ⟨[], attempts_push taken, ?_⟩
      obtain ⟨rfl, -⟩ := step_literal_ok taken
      rwa [List.map_nil, List.append_nil]
  | operator op =>
      have made : s.evaluate op w = (mid, .ok effects) := taken
      refine ⟨[⟨s, op, w, mid, .ok effects⟩], fun rest => ?_, h.evaluate made⟩
      simp only [attempts, made, List.singleton_append]

theorem Counts.evaluates (run : Evaluates w s program after effects)
    (h : Counts s.limits past s.evaluated) :
    Counts after.limits (past ++ (s.attempts w program).map .attempt) after.evaluated := by
  induction run generalizing past with
  | done => simpa only [attempts, List.map_nil, List.append_nil] using h
  | step taken _ ih =>
      obtain ⟨entries, split, next⟩ := h.step taken
      rw [split, List.map_append, ← List.append_assoc]
      exact ih next

theorem Counts.stops (stop : Stops w s program place after mishap)
    (h : Counts s.limits past s.evaluated) :
    Counts after.limits (past ++ (s.attempts w program).map .attempt) after.evaluated := by
  induction stop generalizing past with
  | @here s after instruction rest mishap taken =>
      cases instruction with
      | literal iota =>
          rw [attempts_pushOver taken, List.map_nil, List.append_nil]
          cases stepsTo_iff.mpr taken with
          | pushOver full => exact h
      | operator op =>
          have made : s.evaluate op w = (after, .error mishap) := taken
          simpa only [attempts, made, List.map_cons, List.map_nil] using h.evaluate made
  | later taken _ ih =>
      obtain ⟨entries, split, next⟩ := h.step taken
      rw [split, List.map_append, ← List.append_assoc]
      exact ih next

theorem Stops.getLast?_attempts (stop : Stops w s program place after mishap)
    (there : program[place]? = some (.operator op)) :
    ∃ a, (s.attempts w program).getLast? = some a ∧ a.op = op ∧ a.result = .error mishap := by
  induction stop with
  | @here s after instruction rest mishap taken =>
      cases Option.some.inj there
      have made : s.evaluate op w = (after, .error mishap) := taken
      simp only [attempts, made]
      exact ⟨_, rfl, rfl, rfl⟩
  | @later s mid after instruction rest asked place mishap taken _ ih =>
      obtain ⟨a, last, same, failed⟩ := ih there
      refine ⟨a, ?_, same, failed⟩
      cases instruction with
      | literal iota => rw [attempts_push taken, last]
      | operator other =>
          have made : s.evaluate other w = (mid, .ok asked) := taken
          simp only [attempts, made, List.getLast?_cons, last]
          rfl

variable [CastingEnv ω]

theorem Counts.call (h : Counts s.limits past s.evaluated) (call : Call ω) :
    Counts (s.afterCall call).limits (past ++ s.events call) (s.afterCall call).evaluated := by
  cases call with
  | push iota =>
      rw [events, List.append_nil]
      exact h
  | evaluate op w => exact h.evaluate rfl
  | resetBudget => exact h.restart
  | castBatch program w =>
      have entered : Counts s.resetBudget.limits (past ++ [.restart]) s.resetBudget.evaluated :=
        h.restart
      rw [events, ← List.singleton_append, ← List.append_assoc]
      rcases evaluates_or_stops w s.resetBudget program with
        ⟨reached, effects, run⟩ | ⟨place, reached, mishap, stop⟩
      · -- whether it is then paid or not, the batch leaves the count that its run has reached
        have counts := entered.evaluates run
        simp only [afterCall, run.castBatch]
        split <;> exact counts
      · simp only [afterCall, stop.castBatch]
        exact entered.stops stop

theorem afterCall_limits (s : CastingState) (call : Call ω) :
    (s.afterCall call).limits = s.limits := by
  cases call with
  | push iota => rfl
  | evaluate op w => exact limits_of_evaluate rfl
  | resetBudget => rfl
  | castBatch program w =>
      rcases cast : s.castBatch program w with ⟨after, w', failure | report⟩
      · simpa only [afterCall, cast] using (castBatch_error cast).2.1
      · obtain ⟨effects, paid, accepted⟩ := castBatch_ok cast
        simp only [afterCall, cast]
        exact accepted.run.limits

theorem Counts.history (h : Counts s.limits past s.evaluated) (calls : List (Call ω)) :
    ∃ count, Counts s.limits (past ++ s.history calls) count := by
  induction calls generalizing s past with
  | nil =>
      rw [CastingState.history, List.append_nil]
      exact ⟨_, h⟩
  | cons call rest ih =>
      obtain ⟨count, counts⟩ := ih (h.call call)
      rw [afterCall_limits, List.append_assoc] at counts
      exact ⟨count, counts⟩

end

/-! ## What the count is for -/

section

variable {w : ω} {s after : CastingState} {op : Operator ω}
  {result : Except Mishap (List (SideEffect ω))}

theorem evaluate_of_spent (op : Operator ω) (w : ω)
    (spent : s.limits.maxOpCount.toNat ≤ s.evaluated) :
    s.evaluate op w = (s.leave s.stack, .error (.evalTooDeep s.limits.maxOpCount)) :=
  (StepsTo.tooDeep spent).step

/-- Within the budget, such a mishap is the operator's own. -/
theorem evalTooDeep_iff (made : s.evaluate op w = (after, result)) :
    (∃ limit, result = .error (.evalTooDeep limit)) ↔
      s.limits.maxOpCount.toNat ≤ s.evaluated ∨
        ∃ limit, (op.operate s.stack w).2 = .error (.evalTooDeep limit) := by
  rcases Nat.lt_or_ge s.evaluated s.limits.maxOpCount.toNat with left | spent
  · rw [evaluate_of_left op w left] at made
    rw [or_iff_right (Nat.not_le.mpr left)]
    rcases operated : op.operate s.stack w with ⟨stack, mishap | effects⟩
    · simp only [operated] at made
      cases made
      exact Iff.rfl
    · -- what is left may be too much, which is another mishap
      simp only [operated] at made
      split at made <;> cases made <;>
        simp only [Except.error.injEq, reduceCtorEq, exists_false]
  · rw [evaluate_of_spent op w spent] at made
    cases made
    exact iff_of_true ⟨_, rfl⟩ (.inl spent)

end

end CastingState

theorem StockOperator.operate_ne_evalTooDeep [CastingEnv ω] (op : StockOperator)
    (stack : List Iota) (w : ω) (limit : UInt64) :
    (op.toOperator.operate stack w).2 ≠ .error (.evalTooDeep limit) := by
  change (op.adapter.operate stack w).2 ≠ _
  rcases Nat.lt_or_ge stack.length (op.adapter : Adapter ω).argc with few | enough
  · rw [Adapter.operate_short few]
    exact (nomatch ·)
  · obtain ⟨rest, args, rfl, count⟩ := exists_top enough
    rw [Adapter.operate_append count]
    rcases executed : op.adapter.execute args w with mishap | ⟨results, effects⟩
    · rintro ⟨⟩
      exact not_counted_of_execute count executed (.evalTooDeep limit)
    · exact (nomatch ·)

open CastingState in
/-- The budget counts the operators that were to be evaluated since the latest restart, over any use
of a casting state. Each of them, within a batch or outside, fails by going too deep just where the
count has used up the budget or the operator itself answers so, which no stock operator does; where
the budget is used up, it is refused and the stack stays as it is. A batch that is rejected at an
operator fails by what came of the last operator in its part of the history. -/
theorem budget_counts_attempts_since_restart [CastingEnv ω] (limits : Limits) (stack : List Iota)
    (calls : List (Call ω)) :
    (∀ earlier a later,
      (CastingState.new limits stack).history calls = earlier ++ .attempt a :: later →
      let spent := limits.maxOpCount.toNat ≤ attemptsSinceRestart earlier
      a.before.evaluate a.op a.world = (a.after, a.result) ∧
      ((∃ limit, a.result = .error (.evalTooDeep limit)) ↔
        spent ∨ ∃ limit, (a.op.operate a.before.stack a.world).2 = .error (.evalTooDeep limit)) ∧
      (∀ op : StockOperator, a.op = op.toOperator →
        ((∃ limit, a.result = .error (.evalTooDeep limit)) ↔ spent)) ∧
      (spent → a.result = .error (.evalTooDeep limits.maxOpCount) ∧
        a.after.stack = a.before.stack)) ∧
    ∀ (s after : CastingState) (program : List (Instruction (Operator ω))) (w w' : ω) place mishap,
      s.castBatch program w = (after, w', .error ⟨some place, mishap⟩) →
      ∀ op, program[place]? = some (.operator op) →
      ∃ earlier a, s.events (.castBatch program w) = earlier ++ [.attempt a] ∧
        a.op = op ∧ a.result = .error mishap := by
  refine ⟨?_, ?_⟩
  · intro earlier a later split spent
    obtain ⟨count, counts⟩ := Counts.history (s := .new limits stack) .start calls
    obtain ⟨before, held, made⟩ := counts.attempted split
    have exactly : spent ↔ a.before.limits.maxOpCount.toNat ≤ a.before.evaluated := by
      rw [before.eq, held]
      exact Iff.rfl
    have deep := evalTooDeep_iff made
    rw [← exactly] at deep
    refine ⟨made, deep, ?_, ?_⟩
    · intro op same
      rw [deep, same, or_iff_left]
      rintro ⟨limit, answers⟩
      exact op.operate_ne_evalTooDeep _ _ limit answers
    · intro used
      have refused := evaluate_of_spent a.op a.world (exactly.mp used)
      rw [made, held] at refused
      obtain ⟨state, answer⟩ := Prod.mk.inj refused
      exact ⟨answer, by rw [state]; rfl⟩
  · intro s after program w w' place mishap cast op there
    obtain ⟨reached, stop⟩ := castBatch_stopped cast
    obtain ⟨a, last, same, failed⟩ := stop.getLast?_attempts there
    obtain ⟨others, entries⟩ := List.getLast?_eq_some_iff.mp last
    refine ⟨.restart :: others.map .attempt, a, ?_, same, failed⟩
    rw [events, entries, List.map_append]
    rfl

open CastingState in
/-- A sum without its arguments is rejected in a batch and uses up a budget of one. What is
evaluated next is refused, until the count is restarted. -/
theorem rejected_sum_spends_the_budget :
    let s := CastingState.new { Limits.standard with maxOpCount := 1 } []
    let add : Operator World := StockOperator.add.toOperator
    let nil : Operator World := StockOperator.emptyList.toOperator
    ∃ sum refused fresh,
      s.history [.castBatch [.operator add] World.initial, .push .null,
          .evaluate nil World.initial, .resetBudget, .evaluate nil World.initial] =
        [.restart, .attempt sum, .attempt refused, .restart, .attempt fresh] ∧
      (∃ earlier a, s.events (.castBatch [.operator add] World.initial) =
        earlier ++ [.attempt a] ∧ a.op = add ∧ a.result = .error (.tooFew 2 0)) ∧
      refused.result = .error (.evalTooDeep 1) ∧ refused.after.stack = [.null] ∧
      ¬ ∃ limit, fresh.result = .error (.evalTooDeep limit) := by
  intro s add nil
  obtain ⟨sum, refused, fresh, entries, height, op⟩ : ∃ sum refused fresh,
      s.history [.castBatch [.operator add] World.initial, .push .null,
          .evaluate nil World.initial, .resetBudget, .evaluate nil World.initial] =
        [.restart, .attempt sum, .attempt refused, .restart, .attempt fresh] ∧
      refused.before.stack = [.null] ∧ fresh.op = nil := ⟨_, _, _, rfl, rfl, rfl⟩
  obtain ⟨counts, stops⟩ := budget_counts_attempts_since_restart s.limits []
    [.castBatch [.operator add] World.initial, .push .null, .evaluate nil World.initial,
      .resetBudget, .evaluate nil World.initial]
  obtain ⟨-, -, -, refusal⟩ := counts [.restart, .attempt sum] refused _ entries
  obtain ⟨answer, kept⟩ := refusal (Nat.le_refl 1)
  obtain ⟨-, -, stock, -⟩ :=
    counts [.restart, .attempt sum, .attempt refused, .restart] fresh [] entries
  refine ⟨sum, refused, fresh, entries, stops s _ _ _ _ 0 (.tooFew 2 0) rfl add rfl, answer,
    kept.trans height, fun deep => ?_⟩
  exact Nat.not_succ_le_zero 0 ((stock .emptyList op).mp deep)

/-- An operator may answer by itself that it went too deep, with all of the budget left. -/
theorem operators_may_go_too_deep_themselves :
    let deep : Operator World := .spell ⟨0, true, fun _ _ => .error (.evalTooDeep 5)⟩
    ∃ a : CastingState.Attempt World,
      (CastingState.new .standard []).history [.evaluate deep World.initial] = [.attempt a] ∧
      ¬ ((∃ limit, a.result = .error (.evalTooDeep limit)) ↔
        Limits.standard.maxOpCount.toNat ≤
          CastingState.attemptsSinceRestart ([] : List (CastingState.Event World))) := by
  intro deep
  refine ⟨_, rfl, fun same => ?_⟩
  have spent := same.mp ⟨5, rfl⟩
  revert spent
  decide

end Spellcasting
