import Spellcasting.Proofs.Preludes
import Spellcasting.Proofs.Tally

/-! # Lists as sequences

Some programs do nothing but turn the iotas on top of the stack into others. What they make of them
does not depend on what lies below, on the world or on how often they are cast, and only a limit can
stop them. Such programs are put together from single steps, so the laws of sequences hold of the
programs that spell them out: two sides of a law leave the same list on any stack, for free.
-/

namespace Spellcasting

/-- The mishaps of a limit that has been reached. -/
inductive Mishap.AtLimit : Mishap → Prop where
  | evalTooDeep (limit) : AtLimit (.evalTooDeep limit)
  | stackOverflow (limit) : AtLimit (.stackOverflow limit)

theorem Mishap.AtLimit.counted {mishap : Mishap} (h : mishap.AtLimit) : mishap.Counted := by
  cases h with
  | evalTooDeep limit => exact .evalTooDeep limit
  | stackOverflow limit => exact .stackOverflow limit

namespace CastingState

/-- Counting a program from a fresh budget meets no limit. -/
def Affords (s : CastingState) (steps : List (Instruction StockOperator)) : Prop :=
  ∀ place mishap, Tally.run s.limits ⟨s.stack.length, 0⟩
    (StockOperator.adapters steps : List (Instruction (Adapter World))) = .error (place, mishap) →
      ¬ mishap.AtLimit

/-- Casting a program is accepted, costs nothing, keeps the world as it is and puts some iotas on
top of the stack. -/
def Leaves (s : CastingState) (w : World) (steps : List (Instruction StockOperator))
    (results : List Iota) : Prop :=
  ∃ evaluated, s.castBatch (StockOperator.program steps) w =
    (⟨s.stack ++ results, s.limits, evaluated⟩, w, .ok ⟨0, 0, 0, [], s.stack ++ results⟩)

/-- A program runs to its end with a stack and asks for nothing, or a limit stops it. -/
def Reaches (s : CastingState) (w : World) (program : List (Instruction (Operator World)))
    (stack : List Iota) : Prop :=
  (∃ evaluated, Evaluates w s program ⟨stack, s.limits, evaluated⟩ []) ∨
    ∃ place after mishap, Stops w s program place after mishap ∧ mishap.AtLimit

section

variable {s mid after : CastingState} {w : World} {instruction : Instruction (Operator World)}
  {rest : List (Instruction (Operator World))} {stack : List Iota} {mishap : Mishap}

theorem Reaches.step (taken : StepsTo w s instruction mid (.ok []))
    (later : mid.Reaches w rest stack) : s.Reaches w (instruction :: rest) stack := by
  have limits := step_limits taken.step
  rcases later with ⟨evaluated, run⟩ | ⟨place, after, mishap, stop, limit⟩
  · rw [limits] at run
    exact .inl ⟨evaluated, .step taken.step run⟩
  · exact .inr ⟨place + 1, after, mishap, .later taken.step stop, limit⟩

theorem reaches_of_atLimit (taken : StepsTo w s instruction after (.error mishap))
    (limit : mishap.AtLimit) : s.Reaches w (instruction :: rest) stack :=
  .inr ⟨0, after, mishap, .here taken.step, limit⟩

end

end CastingState

/-- A stock operator turns some arguments into results, whatever the world, and asks for nothing. -/
structure StockOperator.Turns (op : StockOperator) (args results : List Iota) : Prop where
  count : args.length = (op.adapter : Adapter World).argc
  execute : ∀ w : World, op.adapter.execute args w = .ok (results, [])

namespace Lists

variable (a b : List Iota) (x : Iota)

theorem emptyList_turns : StockOperator.emptyList.Turns [] [.list []] := ⟨rfl, fun _ => rfl⟩

theorem singleton_turns : StockOperator.singleton.Turns [x] [.list [x]] := ⟨rfl, fun _ => rfl⟩

theorem append_turns : StockOperator.append.Turns [.list a, x] [.list (a ++ [x])] :=
  ⟨rfl, fun _ => rfl⟩

theorem concat_turns : StockOperator.concat.Turns [.list a, .list b] [.list (a ++ b)] :=
  ⟨rfl, fun _ => rfl⟩

theorem size_turns : StockOperator.listSize.Turns [.list a] [.double (.ofNat a.length)] :=
  ⟨rfl, fun _ => rfl⟩

theorem reverse_turns : StockOperator.reverse.Turns [.list a] [.list a.reverse] :=
  ⟨rfl, fun _ => rfl⟩

end Lists

/-- On any stack that ends in some iotas, a program puts results in their place or is stopped by a
limit. -/
def Makes (args : List Iota) (steps : List (Instruction StockOperator)) (results : List Iota) :
    Prop :=
  ∀ (w : World) (s : CastingState) (base : List Iota), s.stack = base ++ args →
    s.Reaches w (StockOperator.program steps) (base ++ results)

namespace Makes

variable {args results : List Iota} {steps : List (Instruction StockOperator)}

theorem done (args : List Iota) : Makes args [] args := by
  intro w s base whole
  rw [← whole]
  exact .inl ⟨s.evaluated, .done s⟩

theorem literal (x : Iota) (later : Makes (args ++ [x]) steps results) :
    Makes args (.literal x :: steps) results := by
  intro w s base whole
  rcases Nat.lt_or_ge s.stack.length s.limits.maxStackDepth.toNat with fits | full
  · have pushed : s.stack ++ [x] = base ++ (args ++ [x]) := by rw [whole, List.append_assoc]
    exact .step (.push fits) (later w { s with stack := s.stack ++ [x] } base pushed)
  · exact CastingState.reaches_of_atLimit (.pushOver full) (.stackOverflow _)

theorem operator {op : StockOperator} {taken left : List Iota} (below : List Iota)
    (turns : op.Turns taken left) (later : Makes (below ++ left) steps results) :
    Makes (below ++ taken) (.operator op :: steps) results := by
  intro w s base whole
  rw [← List.append_assoc] at whole
  -- a step looks at the budget before it runs the operator and at the depth after that
  rcases Nat.lt_or_ge s.evaluated s.limits.maxOpCount.toNat with budget | spent
  · rcases Nat.lt_or_ge s.limits.maxStackDepth.toNat ((base ++ below) ++ left).length with
      tall | fits
    · exact CastingState.reaches_of_atLimit
        (.applyOver budget whole turns.count (turns.execute w) tall) (.stackOverflow _)
    · exact .step (.apply budget whole turns.count (turns.execute w) fits)
        (later w _ base (List.append_assoc ..))
  · exact CastingState.reaches_of_atLimit (.tooDeep spent) (.evalTooDeep _)

/-- Where no limit is met, a program can be cast for what it makes of nothing. -/
theorem leaves {s : CastingState} (made : Makes [] steps results) (affords : s.Affords steps)
    (w : World) : s.Leaves w steps results := by
  rcases made w s.resetBudget s.stack (List.append_nil _).symm with
    ⟨evaluated, run⟩ | ⟨place, after, mishap, stop, limit⟩
  · exact ⟨evaluated, run.castBatch_of_no_effects⟩
  · exact absurd limit (affords place mishap (stop.tally_counted limit.counted))

end Makes

namespace Lists

/-- Pushes a list. -/
def pushList (items : List Iota) : Instruction StockOperator := .literal (.list items)

/-- Pushes some iotas, each to be appended before the next is pushed. -/
def appendAll (items : List Iota) : List (Instruction StockOperator) :=
  items.flatMap fun x => [.literal x, .operator .append]

/-- Builds a list from nothing. -/
def build (items : List Iota) : List (Instruction StockOperator) :=
  .operator .emptyList :: appendAll items

theorem makes_appendAll (front items : List Iota) :
    Makes [.list front] (appendAll items) [.list (front ++ items)] := by
  -- on what is still to be appended, to whatever has been built so far
  induction items generalizing front with
  | nil =>
      rw [List.append_nil]
      exact .done _
  | cons x rest ih =>
      have later := ih (front ++ [x])
      rw [List.append_assoc] at later
      exact .literal x (.operator [] (append_turns front x) later)

theorem makes_build (items : List Iota) : Makes [] (build items) [.list items] :=
  .operator [] emptyList_turns (makes_appendAll [] items)

theorem tally_appendAll {limits : Limits} {depth : Nat} (items : List Iota) (evaluated : Nat)
    (budget : evaluated + items.length ≤ limits.maxOpCount.toNat)
    (room : depth + 2 ≤ limits.maxStackDepth.toNat) :
    Tally.run limits ⟨depth + 1, evaluated⟩
        (StockOperator.adapters (appendAll items) : List (Instruction (Adapter World))) =
      .ok ⟨depth + 1, evaluated + items.length⟩ := by
  induction items generalizing evaluated with
  | nil => rfl
  | cons x rest ih =>
      rw [List.length_cons] at budget
      have spent : evaluated + 1 ≤ limits.maxOpCount.toNat := by omega
      have later := ih (evaluated + 1) (by omega)
      rw [Nat.add_right_comm, Nat.add_assoc] at later
      have appended : Tally.step limits ⟨depth + 2, evaluated⟩
          (.operator StockOperator.append.adapter : Instruction (Adapter World)) =
            .ok ⟨depth + 1, evaluated + 1⟩ :=
        Tally.step_operator depth StockOperator.append.adapter spent (Nat.le_of_succ_le room)
      exact Tally.run_cons (Tally.step_literal x room) (Tally.run_cons appended later)

theorem affords_build {s : CastingState} (items : List Iota)
    (budget : items.length + 1 ≤ s.limits.maxOpCount.toNat)
    (room : s.stack.length + 2 ≤ s.limits.maxStackDepth.toNat) : s.Affords (build items) := by
  have started : Tally.step s.limits ⟨s.stack.length, 0⟩
      (.operator StockOperator.emptyList.adapter : Instruction (Adapter World)) =
        .ok ⟨s.stack.length + 1, 1⟩ :=
    Tally.step_operator _ StockOperator.emptyList.adapter (Nat.le_of_add_left_le budget)
      (Nat.le_of_succ_le room)
  have counted := Tally.run_cons started (tally_appendAll items 1 (by omega) room)
  intro place mishap stopped
  exact nomatch counted.symm.trans stopped

/-- The laws of sequences: two programs and the iota that both of them leave. -/
inductive SequenceLaw :
    List (Instruction StockOperator) → List (Instruction StockOperator) → Iota → Prop where
  | concat_assoc (a b c) : SequenceLaw
      [pushList a, pushList b, .operator .concat, pushList c, .operator .concat]
      [pushList a, pushList b, pushList c, .operator .concat, .operator .concat]
      (.list (a ++ b ++ c))
  | reverse_concat (a b) : SequenceLaw
      [pushList a, pushList b, .operator .concat, .operator .reverse]
      [pushList b, .operator .reverse, pushList a, .operator .reverse, .operator .concat]
      (.list (a ++ b).reverse)
  | reverse_reverse (a) : SequenceLaw
      [pushList a, .operator .reverse, .operator .reverse] [pushList a] (.list a)
  | append_eq_concat (a x) : SequenceLaw
      [pushList a, .literal x, .operator .append]
      [pushList a, .literal x, .operator .singleton, .operator .concat] (.list (a ++ [x]))
  | empty_concat (a) : SequenceLaw
      [.operator .emptyList, pushList a, .operator .concat] [pushList a] (.list a)
  | concat_empty (a) : SequenceLaw
      [pushList a, .operator .emptyList, .operator .concat] [pushList a] (.list a)
  | size_reverse (a) : SequenceLaw
      [pushList a, .operator .reverse, .operator .listSize]
      [pushList a, .operator .listSize] (.double (.ofNat a.length))

theorem makes_list (a : List Iota) : Makes [] [pushList a] [.list a] := .literal _ (.done _)

theorem SequenceLaw.makes {first second : List (Instruction StockOperator)} {result : Iota}
    (law : SequenceLaw first second result) :
    Makes [] first [result] ∧ Makes [] second [result] := by
  cases law with
  | concat_assoc a b c =>
      have nested := concat_turns a (b ++ c)
      rw [← List.append_assoc] at nested
      constructor
      · refine .literal _ (.literal _ (.operator [] (concat_turns a b) ?_))
        exact .literal _ (.operator [] (concat_turns (a ++ b) c) (.done _))
      · refine .literal _ (.literal _ (.literal _ ?_))
        exact .operator [.list a] (concat_turns b c) (.operator [] nested (.done _))
  | reverse_concat a b =>
      have swapped := concat_turns b.reverse a.reverse
      rw [← List.reverse_append] at swapped
      constructor
      · refine .literal _ (.literal _ (.operator [] (concat_turns a b) ?_))
        exact .operator [] (reverse_turns (a ++ b)) (.done _)
      · refine .literal _ (.operator [] (reverse_turns b) (.literal _ ?_))
        exact .operator [.list b.reverse] (reverse_turns a) (.operator [] swapped (.done _))
  | reverse_reverse a =>
      have twice := reverse_turns a.reverse
      rw [List.reverse_reverse] at twice
      refine ⟨?_, makes_list a⟩
      exact .literal _ (.operator [] (reverse_turns a) (.operator [] twice (.done _)))
  | append_eq_concat a x =>
      constructor
      · exact .literal _ (.literal _ (.operator [] (append_turns a x) (.done _)))
      · refine .literal _ (.literal _ (.operator [.list a] (singleton_turns x) ?_))
        exact .operator [] (concat_turns a [x]) (.done _)
  | empty_concat a =>
      refine ⟨?_, makes_list a⟩
      refine .operator [] emptyList_turns (.literal _ ?_)
      exact .operator [] (concat_turns [] a) (.done _)
  | concat_empty a =>
      have same := concat_turns a []
      rw [List.append_nil] at same
      refine ⟨?_, makes_list a⟩
      exact .literal _ (.operator [.list a] emptyList_turns (.operator [] same (.done _)))
  | size_reverse a =>
      have size := size_turns a.reverse
      rw [List.length_reverse] at size
      constructor
      · exact .literal _ (.operator [] (reverse_turns a) (.operator [] size (.done _)))
      · exact .literal _ (.operator [] (size_turns a) (.done _))

end Lists

/-- Lists behave as sequences in programs that no limit stops. A list can be built iota by iota, and
both sides of every law of sequences are accepted for nothing on any stack and in any world and
leave the same iota on top of it. -/
theorem list_programs_obey_the_laws_of_sequences (s : CastingState) (w : World) :
    (∀ items, s.Affords (Lists.build items) → s.Leaves w (Lists.build items) [.list items]) ∧
    ∀ first second result, Lists.SequenceLaw first second result →
      (s.Affords first → s.Leaves w first [result]) ∧
        (s.Affords second → s.Leaves w second [result]) := by
  refine ⟨fun items affords => (Lists.makes_build items).leaves affords w, ?_⟩
  intro first second result law
  obtain ⟨one, other⟩ := law.makes
  exact ⟨fun affords => one.leaves affords w, fun affords => other.leaves affords w⟩

/-- Lists within lists, above an iota that is there already. -/
theorem nested_lists_obey_the_laws :
    let s : CastingState := .new .standard [.bool false]
    let a : List Iota := [.null, .list [.double 1, .list []]]
    let b : List Iota := [.list [], .bool true]
    let ends : List Iota := [.list [.bool true, .list [], .list [.double 1, .list []], .null]]
    let forwards : List (Instruction StockOperator) :=
      [.literal (.list a), .literal (.list b), .operator .concat, .operator .reverse]
    let backwards : List (Instruction StockOperator) :=
      [.literal (.list b), .operator .reverse, .literal (.list a), .operator .reverse,
        .operator .concat]
    (s.Affords (Lists.build a) ∧ s.Leaves .workbench (Lists.build a) [.list a]) ∧
      (s.Affords forwards ∧ s.Leaves .workbench forwards ends) ∧
      s.Affords backwards ∧ s.Leaves .workbench backwards ends := by
  intro s a b ends forwards backwards
  obtain ⟨built, laws⟩ := list_programs_obey_the_laws_of_sequences s .workbench
  have building : s.Affords (Lists.build a) := Lists.affords_build a (by decide) (by decide)
  have one : s.Affords forwards := nofun
  have other : s.Affords backwards := nofun
  obtain ⟨first, second⟩ := laws forwards backwards _ (.reverse_concat a b)
  exact ⟨⟨building, built a building⟩, ⟨one, first one⟩, other, second other⟩

end Spellcasting
