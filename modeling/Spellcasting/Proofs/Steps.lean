import Spellcasting.Casting.State

/-! # What a step can do

`StepsTo` lists every outcome of one step. A literal is pushed. An operator is stopped by the
budget; an adapter is stopped by a stack that is too short, refuses its arguments, or puts its
results in their place; any other operator fails or succeeds with a stack of its own making. What
has been left on the stack may then be too much for it. A step has just the outcome that the rules
give it, so all that is said of steps is read off the rules.
-/

namespace Spellcasting

variable {ω : Type}

theorem exists_top {stack : List Iota} {argc : Nat} (enough : argc ≤ stack.length) :
    ∃ rest args, stack = rest ++ args ∧ args.length = argc := by
  refine ⟨_, _, (List.take_append_drop (stack.length - argc) stack).symm, ?_⟩
  rw [List.length_drop]
  omega

theorem popArgs_append (rest args : List Iota) :
    popArgs (rest ++ args) args.length = .ok (rest, args) := by
  unfold popArgs
  rw [if_neg (by simp only [List.length_append]; omega)]
  simp only [List.splitAt_eq, List.length_append, Nat.add_sub_cancel, List.take_left,
    List.drop_left]

namespace Adapter

variable {a : Adapter ω} {stack rest args : List Iota} {w : ω}

theorem operate_short (few : stack.length < a.argc) :
    a.operate stack w = (stack, .error (.tooFew a.argc stack.length)) := by
  simp only [operate, popArgs, few, if_true]

theorem operate_append (count : args.length = a.argc) :
    a.operate (rest ++ args) w =
      match a.execute args w with
      | .error m => (rest, .error m)
      | .ok (results, effects) => (rest ++ results, .ok effects) := by
  have popped : popArgs (rest ++ args) a.argc = .ok (rest, args) := count ▸ popArgs_append rest args
  cases executed : a.execute args w <;> simp only [operate, popped, executed]

end Adapter

namespace CastingState

/-- An operator has been evaluated and has left a stack. -/
def leave (s : CastingState) (stack : List Iota) : CastingState :=
  { s with stack, evaluated := s.evaluated + 1 }

/-- Within the budget, an operator leaves what it makes of the stack, unless that is too much. -/
theorem evaluate_of_left {s : CastingState} (op : Operator ω) (w : ω)
    (left : s.evaluated < s.limits.maxOpCount.toNat) :
    s.evaluate op w =
      match op.operate s.stack w with
      | (stack, .error m) => (s.leave stack, .error m)
      | (stack, .ok effects) =>
        if s.limits.maxStackDepth.toNat < stack.length then
          (s.leave stack, .error (.stackOverflow s.limits.maxStackDepth))
        else (s.leave stack, .ok effects) := by
  have budget : ¬ s.limits.maxOpCount.toNat < s.evaluated + 1 := Nat.not_lt.mpr left
  rcases operated : op.operate s.stack w with ⟨stack, m | effects⟩
  · simp only [evaluate, budget, if_false, operated]
    rfl
  · simp only [evaluate, budget, if_false, operated, checkDepth, leave]
    by_cases tall : s.limits.maxStackDepth.toNat < stack.length
    · simp only [tall, if_true]
    · simp only [tall, if_false]

/-- The outcome of a step. -/
inductive StepsTo (w : ω) (s : CastingState) :
    Instruction (Operator ω) → CastingState → Except Mishap (List (SideEffect ω)) → Prop where
  | push {iota} (fits : s.stack.length < s.limits.maxStackDepth.toNat) :
      StepsTo w s (.literal iota) { s with stack := s.stack ++ [iota] } (.ok [])
  | pushOver {iota} (full : s.limits.maxStackDepth.toNat ≤ s.stack.length) :
      StepsTo w s (.literal iota) { s with stack := s.stack ++ [iota] }
        (.error (.stackOverflow s.limits.maxStackDepth))
  | tooDeep {op} (spent : s.limits.maxOpCount.toNat ≤ s.evaluated) :
      StepsTo w s (.operator op) (s.leave s.stack) (.error (.evalTooDeep s.limits.maxOpCount))
  | tooFew {a} (left : s.evaluated < s.limits.maxOpCount.toNat)
      (few : s.stack.length < a.argc) :
      StepsTo w s (.operator (.adapted a)) (s.leave s.stack)
        (.error (.tooFew a.argc s.stack.length))
  | refuse {a rest args m} (left : s.evaluated < s.limits.maxOpCount.toNat)
      (whole : s.stack = rest ++ args) (count : args.length = a.argc)
      (executed : a.execute args w = .error m) :
      StepsTo w s (.operator (.adapted a)) (s.leave rest) (.error m)
  | apply {a rest args results effects} (left : s.evaluated < s.limits.maxOpCount.toNat)
      (whole : s.stack = rest ++ args) (count : args.length = a.argc)
      (executed : a.execute args w = .ok (results, effects))
      (fits : (rest ++ results).length ≤ s.limits.maxStackDepth.toNat) :
      StepsTo w s (.operator (.adapted a)) (s.leave (rest ++ results)) (.ok effects)
  | applyOver {a rest args results effects} (left : s.evaluated < s.limits.maxOpCount.toNat)
      (whole : s.stack = rest ++ args) (count : args.length = a.argc)
      (executed : a.execute args w = .ok (results, effects))
      (tall : s.limits.maxStackDepth.toNat < (rest ++ results).length) :
      StepsTo w s (.operator (.adapted a)) (s.leave (rest ++ results))
        (.error (.stackOverflow s.limits.maxStackDepth))
  | fail {run stack m} (left : s.evaluated < s.limits.maxOpCount.toNat)
      (ran : run s.stack w = (stack, .error m)) :
      StepsTo w s (.operator (.direct run)) (s.leave stack) (.error m)
  | act {run stack effects} (left : s.evaluated < s.limits.maxOpCount.toNat)
      (ran : run s.stack w = (stack, .ok effects))
      (fits : stack.length ≤ s.limits.maxStackDepth.toNat) :
      StepsTo w s (.operator (.direct run)) (s.leave stack) (.ok effects)
  | actOver {run stack effects} (left : s.evaluated < s.limits.maxOpCount.toNat)
      (ran : run s.stack w = (stack, .ok effects))
      (tall : s.limits.maxStackDepth.toNat < stack.length) :
      StepsTo w s (.operator (.direct run)) (s.leave stack)
        (.error (.stackOverflow s.limits.maxStackDepth))

section

variable {w : ω} {s after : CastingState} {instruction : Instruction (Operator ω)}
  {result : Except Mishap (List (SideEffect ω))}

theorem StepsTo.step (h : StepsTo w s instruction after result) :
    s.step instruction w = (after, result) := by
  cases h with
  | push fits =>
      have depth : ¬ s.limits.maxStackDepth.toNat < s.stack.length + 1 := by omega
      simp only [CastingState.step, CastingState.push, checkDepth, List.length_append,
        List.length_singleton, depth, if_false]
  | pushOver full =>
      have depth : s.limits.maxStackDepth.toNat < s.stack.length + 1 := by omega
      simp only [CastingState.step, CastingState.push, checkDepth, List.length_append,
        List.length_singleton, depth, if_true]
  | tooDeep spent =>
      have budget : s.limits.maxOpCount.toNat < s.evaluated + 1 := by omega
      simp only [CastingState.step, evaluate, budget, if_true]
      rfl
  | tooFew left few =>
      simp only [CastingState.step, evaluate_of_left _ w left, Operator.operate,
        Adapter.operate_short few]
  | refuse left whole count executed =>
      simp only [CastingState.step, evaluate_of_left _ w left, Operator.operate, whole,
        Adapter.operate_append count, executed]
  | apply left whole count executed fits =>
      simp only [CastingState.step, evaluate_of_left _ w left, Operator.operate, whole,
        Adapter.operate_append count, executed, Nat.not_lt.mpr fits, if_false]
  | applyOver left whole count executed tall =>
      simp only [CastingState.step, evaluate_of_left _ w left, Operator.operate, whole,
        Adapter.operate_append count, executed, tall, if_true]
  | fail left ran => simp only [CastingState.step, evaluate_of_left _ w left, Operator.operate, ran]
  | act left ran fits =>
      simp only [CastingState.step, evaluate_of_left _ w left, Operator.operate, ran,
        Nat.not_lt.mpr fits, if_false]
  | actOver left ran tall =>
      simp only [CastingState.step, evaluate_of_left _ w left, Operator.operate, ran, tall, if_true]

theorem exists_stepsTo_adapted (a : Adapter ω) (left : s.evaluated < s.limits.maxOpCount.toNat) :
    ∃ after result, StepsTo w s (.operator (.adapted a)) after result := by
  rcases Nat.lt_or_ge s.stack.length a.argc with few | enough
  · exact ⟨_, _, .tooFew left few⟩
  · obtain ⟨rest, args, whole, count⟩ := exists_top enough
    rcases executed : a.execute args w with m | ⟨results, effects⟩
    · exact ⟨_, _, .refuse left whole count executed⟩
    · rcases Nat.lt_or_ge s.limits.maxStackDepth.toNat (rest ++ results).length with tall | fits
      · exact ⟨_, _, .applyOver left whole count executed tall⟩
      · exact ⟨_, _, .apply left whole count executed fits⟩

/-- The rules leave no step without an outcome. -/
theorem exists_stepsTo (w : ω) (s : CastingState) (instruction : Instruction (Operator ω)) :
    ∃ after result, StepsTo w s instruction after result := by
  cases instruction with
  | literal iota =>
      rcases Nat.lt_or_ge s.stack.length s.limits.maxStackDepth.toNat with fits | full
      · exact ⟨_, _, .push fits⟩
      · exact ⟨_, _, .pushOver full⟩
  | operator op =>
      rcases Nat.lt_or_ge s.evaluated s.limits.maxOpCount.toNat with left | spent
      · cases op with
        | adapted a => exact exists_stepsTo_adapted a left
        | direct run =>
            rcases ran : run s.stack w with ⟨stack, m | effects⟩
            · exact ⟨_, _, .fail left ran⟩
            · rcases Nat.lt_or_ge s.limits.maxStackDepth.toNat stack.length with tall | fits
              · exact ⟨_, _, .actOver left ran tall⟩
              · exact ⟨_, _, .act left ran fits⟩
      · exact ⟨_, _, .tooDeep spent⟩

theorem stepsTo_iff :
    StepsTo w s instruction after result ↔ s.step instruction w = (after, result) := by
  refine ⟨StepsTo.step, fun taken => ?_⟩
  obtain ⟨reached, answer, h⟩ := exists_stepsTo w s instruction
  rw [h.step] at taken
  cases taken
  exact h

theorem step_limits (taken : s.step instruction w = (after, result)) :
    after.limits = s.limits := by
  cases stepsTo_iff.mpr taken <;> rfl

theorem step_literal_ok {iota : Iota} {effects : List (SideEffect ω)}
    (h : s.step (.literal iota) w = (after, .ok effects)) :
    after = { s with stack := s.stack ++ [iota] } ∧ effects = [] := by
  cases stepsTo_iff.mpr h with
  | push fits => exact ⟨rfl, rfl⟩

theorem step_operator_ok {op : Operator ω} {effects : List (SideEffect ω)} :
    s.step (.operator op) w = (after, .ok effects) ↔
      s.evaluated < s.limits.maxOpCount.toNat ∧ ∃ stack,
        op.operate s.stack w = (stack, .ok effects) ∧
        stack.length ≤ s.limits.maxStackDepth.toNat ∧ after = s.leave stack := by
  constructor
  · intro taken
    cases stepsTo_iff.mpr taken with
    | apply left whole count executed fits =>
        refine ⟨left, _, ?_, fits, rfl⟩
        rw [whole, Operator.operate, Adapter.operate_append count, executed]
    | act left ran fits => exact ⟨left, _, ran, fits, rfl⟩
  · rintro ⟨left, stack, operated, fits, rfl⟩
    simp only [step, evaluate_of_left op w left, operated, Nat.not_lt.mpr fits, if_false]

theorem step_adapted_ok {a : Adapter ω} {effects : List (SideEffect ω)}
    (h : s.step (.operator (.adapted a)) w = (after, .ok effects)) :
    ∃ rest args results, s.stack = rest ++ args ∧ args.length = a.argc ∧
      a.execute args w = .ok (results, effects) ∧
      after = ⟨rest ++ results, s.limits, s.evaluated + 1⟩ := by
  cases stepsTo_iff.mpr h with
  | apply left whole count executed fits => exact ⟨_, _, _, whole, count, executed, rfl⟩

end

end CastingState

end Spellcasting
