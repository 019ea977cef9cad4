import Spellcasting.Proofs.Evaluation
import Spellcasting.Proofs.StockPrograms

/-! # What can be told by counting

Budget and depth of a stock program can be told without running it: a tally counts iotas and
operators and knows nothing of types or of the world. The casts that are stopped by the budget, by a
stack that is too short or by one that is too tall are stopped where the tally is, and a cast that
goes through ends at its depth. For that, a stock operator that has its arguments has to leave as
many iotas as its sort says, and must not blame a lack of arguments itself.
-/

namespace Spellcasting

/-- The mishaps that a count of iotas and operators can tell. -/
inductive Mishap.Counted : Mishap → Prop where
  | evalTooDeep (limit) : Counted (.evalTooDeep limit)
  | notEnoughArgs (expected got) : Counted (.notEnoughArgs expected got)
  | stackOverflow (limit) : Counted (.stackOverflow limit)

/-- How many iotas an operator of either sort leaves in place of its arguments. -/
def Adapter.pushes {ω : Type} : Adapter ω → Nat
  | const _ => 1
  | spell _ => 0

/-- How tall a stack is and how many operators have been evaluated. -/
structure Tally where
  depth : Nat
  evaluated : Nat

namespace Tally

variable {ω : Type}

def checkDepth (limits : Limits) (t : Tally) : Except Mishap Tally :=
  if limits.maxStackDepth.toNat < t.depth then .error (.stackOverflow limits.maxStackDepth)
  else .ok t

/-- Counts one instruction. -/
def step (limits : Limits) (t : Tally) : Instruction (Adapter ω) → Except Mishap Tally
  | .literal _ => checkDepth limits ⟨t.depth + 1, t.evaluated⟩
  | .operator op =>
    if limits.maxOpCount.toNat < t.evaluated + 1 then .error (.evalTooDeep limits.maxOpCount)
    else if t.depth < op.argc then .error (.tooFew op.argc t.depth)
    else checkDepth limits ⟨t.depth - op.argc + op.pushes, t.evaluated + 1⟩

/-- Counts a program, up to the first failure, which is given with the number of instructions
before it. -/
def run (limits : Limits) (t : Tally) :
    List (Instruction (Adapter ω)) → Except (Nat × Mishap) Tally
  | [] => .ok t
  | instruction :: rest =>
    match t.step limits instruction with
    | .error mishap => .error (0, mishap)
    | .ok next =>
      (next.run limits rest).mapError fun (place, mishap) => (place + 1, mishap)

variable {limits : Limits}

theorem step_literal {depth evaluated : Nat} (x : Iota)
    (room : depth + 1 ≤ limits.maxStackDepth.toNat) :
    step limits ⟨depth, evaluated⟩ (.literal x : Instruction (Adapter ω)) =
      .ok ⟨depth + 1, evaluated⟩ :=
  if_neg (Nat.not_lt.mpr room)

theorem step_operator {evaluated : Nat} (rest : Nat) (op : Adapter ω)
    (budget : evaluated + 1 ≤ limits.maxOpCount.toNat)
    (room : rest + op.pushes ≤ limits.maxStackDepth.toNat) :
    step limits ⟨rest + op.argc, evaluated⟩ (.operator op) =
      .ok ⟨rest + op.pushes, evaluated + 1⟩ := by
  simp only [step, checkDepth, Nat.not_lt.mpr budget, Nat.not_lt.mpr room,
    Nat.not_lt.mpr (Nat.le_add_left op.argc rest), Nat.add_sub_cancel, if_false]

theorem run_cons {t next : Tally} {instruction : Instruction (Adapter ω)}
    {rest : List (Instruction (Adapter ω))} {last : Tally}
    (taken : t.step limits instruction = .ok next) (later : next.run limits rest = .ok last) :
    t.run limits (instruction :: rest) = .ok last := by
  simp only [run, taken, later]
  rfl

end Tally

/-- An answer whose value is as told, and whose mishap is none that a count can tell. -/
def Answers {α : Type} (told : α → Prop) : Except Mishap α → Prop
  | .ok value => told value
  | .error mishap => ¬ mishap.Counted

section

variable {α β : Type} {told : α → Prop} {then_ : β → Prop}

theorem Answers.bind {first : Except Mishap α} {next : α → Except Mishap β}
    (answers : Answers told first) (each : ∀ value, told value → Answers then_ (next value)) :
    Answers then_ (first >>= next) := by
  cases first with
  | error mishap => exact answers
  | ok value => exact each value answers

end

namespace Arguments

variable {a : Arguments} {idx : Nat}

theorem any_answers (there : idx < a.values.length) : Answers (fun _ => True) (a.any idx) := by
  simp only [any, List.getElem?_eq_getElem there]
  trivial

theorem get_answers {α : Type} (reading : Reading α) (there : idx < a.values.length) :
    Answers (fun _ => True) (a.get reading idx) := by
  simp only [get, any, List.getElem?_eq_getElem there]
  cases reading.read? a.values[idx] with
  | none => exact (nomatch ·)
  | some value => trivial

end Arguments

/-- An operator on arguments that leaves one result for so many of them. -/
def LeavesOne (argc : Nat) (run : Arguments → Except Mishap (List Iota)) : Prop :=
  ∀ args, args.values.length = argc → Answers (·.length = 1) (run args)

namespace Lists

theorem emptyList_leavesOne : LeavesOne 0 emptyList := fun _ _ => rfl

theorem singleton_leavesOne : LeavesOne 1 singleton := by
  intro args count
  exact (args.any_answers (by omega)).bind fun x _ => rfl

theorem append_leavesOne : LeavesOne 2 append := by
  intro args count
  refine (args.get_answers .list (by omega)).bind fun items _ => ?_
  exact (args.any_answers (by omega)).bind fun x _ => rfl

theorem concat_leavesOne : LeavesOne 2 concat := by
  intro args count
  refine (args.get_answers .list (by omega)).bind fun front _ => ?_
  exact (args.get_answers .list (by omega)).bind fun back _ => rfl

theorem index_leavesOne : LeavesOne 2 index := by
  intro args count
  refine (args.get_answers .list (by omega)).bind fun items _ => ?_
  exact (args.get_answers .double (by omega)).bind fun place _ => rfl

theorem size_leavesOne : LeavesOne 1 size := by
  intro args count
  exact (args.get_answers .list (by omega)).bind fun items _ => rfl

theorem reverse_leavesOne : LeavesOne 1 reverse := by
  intro args count
  exact (args.get_answers .list (by omega)).bind fun items _ => rfl

end Lists

namespace Arithmetic

theorem operands_answers {args : Arguments} (count : args.values.length = 2) :
    Answers (fun _ => True) (operands args) := by
  refine (args.get_answers .numOrVec (by omega)).bind fun a _ => ?_
  exact (args.get_answers .numOrVec (by omega)).bind fun b _ => trivial

theorem combine_leavesOne (combine : NumOrVec → NumOrVec → NumOrVec) :
    LeavesOne 2 fun args => do
      let (a, b) ← operands args
      return [(combine a b).toIota] := by
  intro args count
  exact (operands_answers count).bind fun pair _ => rfl

theorem add_leavesOne : LeavesOne 2 add := combine_leavesOne sum

theorem sub_leavesOne : LeavesOne 2 sub := combine_leavesOne difference

theorem mul_leavesOne : LeavesOne 2 mul := combine_leavesOne product

theorem div_leavesOne : LeavesOne 2 div := by
  intro args count
  refine (operands_answers count).bind fun (a, b) _ => ?_
  dsimp only
  cases quotient? a b with
  | none => exact (nomatch ·)
  | some q => rfl

end Arithmetic

namespace Adapter

variable {ω : Type} {args : List Iota} {w : ω}

theorem const_answers {operator : ConstOperator ω}
    (answers : Answers (·.length = 1) (operator.execute args w)) :
    Answers (·.1.length = 1) ((const operator).execute args w) := by
  cases executed : operator.execute args w <;>
    simp only [execute, executed] <;> rwa [executed] at answers

theorem spell_answers {operator : SpellOperator ω}
    (answers : Answers (fun _ => True) (operator.execute args w)) :
    Answers (·.1.length = 0) ((spell operator).execute args w) := by
  rcases executed : operator.execute args w with mishap | _ | cast
  · simp only [execute, executed]
    rwa [executed] at answers
  · simp only [execute, executed]
    rfl
  · simp only [execute, executed]
    rfl

end Adapter

section

variable {ω : Type} [CastingEnv ω] {args : List Iota}

theorem CastingEnv.reachable_answers (w : ω) (ref : EntityRef) :
    Answers (fun _ => True) (reachable w ref) := by
  rcases reachable_cases w ref with ⟨state, -, -, reached⟩ | ⟨-, refused⟩
  · rw [reached]
    trivial
  · rw [refused]
    exact (nomatch ·)

theorem StockOperator.entityPosition_leavesOne (w : ω) : LeavesOne 1 (entityPosition · w) := by
  intro args count
  refine (args.get_answers .entity (by omega)).bind fun ref _ => ?_
  exact (CastingEnv.reachable_answers w ref).bind fun state _ => rfl

theorem Recharge.evaluate_answers (count : args.length = 1) (w : ω) :
    Answers (fun _ => True) (evaluate args w) := by
  refine (Arguments.get_answers (a := ⟨args, 1⟩) .itemEntity
    (by simp only [count, Nat.one_pos])).bind fun ref _ => ?_
  dsimp only
  split
  · exact (nomatch ·)
  · refine (CastingEnv.reachable_answers w ref).bind fun state _ => ?_
    split
    · split <;> trivial
    · exact (nomatch ·)

theorem CraftBattery.evaluate_answers (count : args.length = 1) (w : ω) :
    Answers (fun _ => True) (evaluate args w) := by
  refine (Arguments.get_answers (a := ⟨args, 1⟩) .itemEntity
    (by simp only [count, Nat.one_pos])).bind fun ref _ => ?_
  dsimp only
  split
  · exact (nomatch ·)
  · split
    · exact (nomatch ·)
    · refine (CastingEnv.reachable_answers w ref).bind fun state _ => ?_
      split
      · exact (nomatch ·)
      · trivial

namespace StockOperator

/-- With its arguments, a stock operator leaves as many iotas as its sort says, or fails in a way
that no count can tell. -/
theorem execute_answers (op : StockOperator)
    (count : args.length = (op.adapter : Adapter ω).argc) (w : ω) :
    Answers (·.1.length = (op.adapter : Adapter ω).pushes)
      (op.adapter.execute args w) := by
  cases op with
  | emptyList => exact Adapter.const_answers (Lists.emptyList_leavesOne ⟨args, 0⟩ count)
  | singleton => exact Adapter.const_answers (Lists.singleton_leavesOne ⟨args, 1⟩ count)
  | append => exact Adapter.const_answers (Lists.append_leavesOne ⟨args, 2⟩ count)
  | concat => exact Adapter.const_answers (Lists.concat_leavesOne ⟨args, 2⟩ count)
  | index => exact Adapter.const_answers (Lists.index_leavesOne ⟨args, 2⟩ count)
  | listSize => exact Adapter.const_answers (Lists.size_leavesOne ⟨args, 1⟩ count)
  | reverse => exact Adapter.const_answers (Lists.reverse_leavesOne ⟨args, 1⟩ count)
  | add => exact Adapter.const_answers (Arithmetic.add_leavesOne ⟨args, 2⟩ count)
  | sub => exact Adapter.const_answers (Arithmetic.sub_leavesOne ⟨args, 2⟩ count)
  | mul => exact Adapter.const_answers (Arithmetic.mul_leavesOne ⟨args, 2⟩ count)
  | div => exact Adapter.const_answers (Arithmetic.div_leavesOne ⟨args, 2⟩ count)
  | entityPos => exact Adapter.const_answers (entityPosition_leavesOne w ⟨args, 1⟩ count)
  | recharge =>
      refine Adapter.spell_answers ((Recharge.evaluate_answers count w).bind fun answer _ => ?_)
      cases answer <;> trivial
  | craftBattery =>
      refine Adapter.spell_answers
        ((CraftBattery.evaluate_answers count w).bind fun answer _ => ?_)
      cases answer <;> trivial

variable {op : StockOperator} {w : ω}

theorem length_of_execute {results : List Iota} {effects : List (SideEffect ω)}
    (count : args.length = (op.adapter : Adapter ω).argc)
    (executed : op.adapter.execute args w = .ok (results, effects)) :
    results.length = (op.adapter : Adapter ω).pushes := by
  have made := op.execute_answers count w
  rwa [executed] at made

theorem not_counted_of_execute {mishap : Mishap}
    (count : args.length = (op.adapter : Adapter ω).argc)
    (executed : op.adapter.execute args w = .error mishap) : ¬ mishap.Counted := by
  have made := op.execute_answers count w
  rwa [executed] at made

end StockOperator

end

theorem error_of_mapError {ε ε' α : Type} {f : ε → ε'} {x : Except ε α} {e : ε'}
    (h : x.mapError f = .error e) : ∃ first, x = .error first ∧ f first = e := by
  cases x with
  | error first => exact ⟨first, rfl, Except.error.inj h⟩
  | ok value => cases h

namespace CastingState

variable {ω : Type}

def tally (s : CastingState) : Tally := ⟨s.stack.length, s.evaluated⟩

theorem tally_step_operator {s : CastingState} {op : Adapter ω} {rest args results : List Iota}
    (left : s.evaluated < s.limits.maxOpCount.toNat) (whole : s.stack = rest ++ args)
    (count : args.length = op.argc) (made : results.length = op.pushes) :
    s.tally.step s.limits (.operator op) =
      Tally.checkDepth s.limits (s.leave (rest ++ results)).tally := by
  have budget : ¬ s.limits.maxOpCount.toNat < s.tally.evaluated + 1 := Nat.not_lt.mpr left
  have height : s.tally.depth = rest.length + args.length := by
    simp only [tally, whole, List.length_append]
  have enough : ¬ s.tally.depth < op.argc := by omega
  have depth : s.tally.depth - op.argc + op.pushes = (rest ++ results).length := by
    rw [List.length_append]
    omega
  simp only [Tally.step, budget, enough, depth, if_false]
  rfl

variable [CastingEnv ω] {w : ω} {s after : CastingState} {instruction : Instruction StockOperator}
  {steps : List (Instruction StockOperator)} {effects : List (SideEffect ω)} {mishap : Mishap}
  {place : Nat}

theorem StepsTo.tally
    (h : StepsTo w s (instruction.map StockOperator.toOperator) after (.ok effects)) :
    s.tally.step s.limits (instruction.map StockOperator.adapter : Instruction (Adapter ω)) =
      .ok after.tally := by
  cases instruction with
  | literal iota =>
      cases h with
      | push fits =>
          have depth : ¬ s.limits.maxStackDepth.toNat < s.stack.length + 1 := Nat.not_lt.mpr fits
          simp only [Instruction.map, Tally.step, Tally.checkDepth, CastingState.tally,
            List.length_append, List.length_singleton, depth, if_false]
  | operator op =>
      cases h with
      | apply left whole count executed fits =>
          have made := StockOperator.length_of_execute count executed
          exact (tally_step_operator left whole count made).trans (if_neg (Nat.not_lt.mpr fits))

theorem StepsTo.tally_counted
    (h : StepsTo w s (instruction.map StockOperator.toOperator) after (.error mishap))
    (counted : mishap.Counted) :
    s.tally.step s.limits (instruction.map StockOperator.adapter : Instruction (Adapter ω)) =
      .error mishap := by
  cases instruction with
  | literal iota =>
      cases h with
      | pushOver full => exact if_pos (Nat.lt_succ_of_le full)
  | operator op =>
      cases h with
      | tooDeep spent => exact if_pos (Nat.lt_succ_of_le spent)
      | tooFew left few => exact (if_neg (Nat.not_lt.mpr left)).trans (if_pos few)
      | refuse left whole count executed =>
          exact absurd counted (StockOperator.not_counted_of_execute count executed)
      | applyOver left whole count executed tall =>
          have made := StockOperator.length_of_execute count executed
          exact (tally_step_operator left whole count made).trans (if_pos tall)

theorem tally_run_cons {mid : CastingState}
    (taken : s.step (instruction.map StockOperator.toOperator) w = (mid, .ok effects)) :
    s.tally.run s.limits
        (StockOperator.adapters (instruction :: steps) : List (Instruction (Adapter ω))) =
      (mid.tally.run mid.limits
        (StockOperator.adapters steps : List (Instruction (Adapter ω)))).mapError
          fun (place, mishap) => (place + 1, mishap) := by
  have told := (stepsTo_iff.mpr taken).tally
  rw [step_limits taken]
  simp only [StockOperator.adapters, List.map_cons, Tally.run, told]

theorem Evaluates.tally (run : Evaluates w s (StockOperator.program steps) after effects) :
    s.tally.run s.limits (StockOperator.adapters steps : List (Instruction (Adapter ω))) =
      .ok after.tally := by
  induction steps generalizing s effects with
  | nil =>
      cases run
      rfl
  | cons instruction rest ih =>
      cases run with
      | step taken run =>
          rw [tally_run_cons taken, ih run]
          rfl

theorem Stops.tally_counted (stop : Stops w s (StockOperator.program steps) place after mishap)
    (counted : mishap.Counted) :
    s.tally.run s.limits (StockOperator.adapters steps : List (Instruction (Adapter ω))) =
      .error (place, mishap) := by
  induction steps generalizing s place with
  | nil => cases stop
  | cons instruction rest ih =>
      cases stop with
      | here taken =>
          have told := (stepsTo_iff.mpr taken).tally_counted counted
          simp only [StockOperator.adapters, List.map_cons, Tally.run, told]
      | later taken stop =>
          rw [tally_run_cons taken, ih stop]
          rfl

/-- The tally is never stopped before the program is. -/
theorem Stops.place_le_tally (stop : Stops w s (StockOperator.program steps) place after mishap)
    {last : Nat} {told : Mishap}
    (stopped : s.tally.run s.limits
      (StockOperator.adapters steps : List (Instruction (Adapter ω))) = .error (last, told)) :
    place ≤ last := by
  induction steps generalizing s place last with
  | nil => cases stop
  | cons instruction rest ih =>
      cases stop with
      | here taken => exact Nat.zero_le _
      | later taken stop =>
          rw [tally_run_cons taken] at stopped
          obtain ⟨⟨before, m⟩, rest_stopped, same⟩ := error_of_mapError stopped
          cases same
          exact Nat.succ_le_succ (ih stop rest_stopped)

end CastingState

/-- Depth and budget can be told by counting. A cast that is stopped at an instruction by its
budget, for want of arguments or by a stack too tall is stopped where the tally is and by the same
mishap; where the tally is stopped the cast is stopped by then; and a cast that is accepted ends at
the depth of the tally. -/
theorem depth_and_budget_are_told_by_counting {ω : Type} [CastingEnv ω] (s : CastingState)
    (steps : List (Instruction StockOperator)) (w : ω) :
    let program : List (Instruction (Operator ω)) := StockOperator.program steps
    let told := Tally.run s.limits ⟨s.stack.length, 0⟩
      (StockOperator.adapters steps : List (Instruction (Adapter ω)))
    (∀ after w' place mishap,
      s.castBatch program w = (after, w', .error ⟨some place, mishap⟩) → mishap.Counted →
      told = .error (place, mishap)) ∧
    (∀ last mishap, told = .error (last, mishap) → ∃ after w' place mishap,
      s.castBatch program w = (after, w', .error ⟨some place, mishap⟩) ∧ place ≤ last) ∧
    ∀ after w' report, s.castBatch program w = (after, w', .ok report) →
      told = .ok ⟨after.stack.length, after.evaluated⟩ := by
  intro program told
  refine ⟨?_, ?_, ?_⟩
  · intro after w' place mishap cast counted
    obtain ⟨reached, stop⟩ := CastingState.castBatch_stopped cast
    exact stop.tally_counted counted
  · intro last mishap stopped
    rcases CastingState.evaluates_or_stops w s.resetBudget program with
      ⟨reached, effects, run⟩ | ⟨place, reached, m, stop⟩
    · have ran : told = .ok reached.tally := run.tally
      rw [ran] at stopped
      cases stopped
    · exact ⟨_, _, place, m, stop.castBatch, stop.place_le_tally stopped⟩
  · intro after w' report cast
    obtain ⟨effects, paid, accepted⟩ := CastingState.castBatch_ok cast
    exact accepted.run.tally

/-- The size of null is refused before the sum that follows it is found to lack an argument; a
second iota overflows a stack that may hold one; and the cast at the workbench leaves nothing. -/
theorem counting_tells_overflow_lack_and_end :
    (∃ after w' place mishap,
      Tally.run .standard ⟨0, 0⟩ (StockOperator.adapters
        [.literal .null, .operator .listSize, .operator .add] : List (Instruction (Adapter World)))
          = .error (2, .tooFew 2 1) ∧
      (CastingState.new .standard []).castBatch (StockOperator.program
        [.literal .null, .operator .listSize, .operator .add]) World.workbench =
          (after, w', .error ⟨some place, mishap⟩) ∧ place ≤ 2) ∧
    (∃ after w',
      (CastingState.new { Limits.standard with maxStackDepth := 1 } []).castBatch
        (StockOperator.program [.literal .null, .literal .null]) World.workbench =
          (after, w', .error ⟨some 1, .stackOverflow 1⟩) ∧
      (Mishap.stackOverflow 1).Counted ∧
      Tally.run { Limits.standard with maxStackDepth := 1 } ⟨0, 0⟩ (StockOperator.adapters
        [.literal .null, .literal .null] : List (Instruction (Adapter World))) =
          .error (1, .stackOverflow 1)) ∧
    ∃ after w' report,
      (CastingState.new .standard []).castBatch (StockOperator.program World.workbenchSteps)
        World.workbench = (after, w', .ok report) ∧
      Tally.run .standard ⟨0, 0⟩
        (StockOperator.adapters World.workbenchSteps : List (Instruction (Adapter World))) =
          .ok ⟨after.stack.length, after.evaluated⟩ := by
  refine ⟨?_, ?_, ?_⟩
  · obtain ⟨after, w', place, mishap, cast, ahead⟩ := (depth_and_budget_are_told_by_counting
      (.new .standard []) [.literal .null, .operator .listSize, .operator .add]
      World.workbench).2.1 2 (.tooFew 2 1) rfl
    exact ⟨after, w', place, mishap, rfl, cast, ahead⟩
  · exact ⟨_, _, rfl, .stackOverflow 1, (depth_and_budget_are_told_by_counting
      (.new { Limits.standard with maxStackDepth := 1 } []) [.literal .null, .literal .null]
      World.workbench).1 _ _ _ _ rfl (.stackOverflow 1)⟩
  · obtain ⟨after, w', report, cast⟩ := CastingState.exists_accepted (.new .standard [])
      (StockOperator.program World.workbenchSteps) World.workbench (by decide +kernel)
    exact ⟨after, w', report, cast, (depth_and_budget_are_told_by_counting (.new .standard [])
      World.workbenchSteps World.workbench).2.2 _ _ _ cast⟩

end Spellcasting
