import Spellcasting.Proofs.Continuations
import Spellcasting.Proofs.StockPrograms

/-! # Arguments of the wrong type

Every stock operator takes its arguments by a list of types, the deepest first, and reads them in
that order. So the mishap of a wrong type always names the deepest argument that does not fit: its
place is counted from the top of the stack as it was before the call, the iota is the one that lies
there, and all arguments below it fit. `Checked` follows an operator from one reading to the next;
there is a rule for each way to go on.
-/

namespace Spellcasting

/-- What an operator takes in the place of an argument. -/
inductive ArgumentType where
  | any
  | double
  | numOrVec
  | list
  | entity
  | itemEntity

namespace ArgumentType

/-- The name by which a mishap asks for the type; where any iota will do, none is asked for. -/
def wanted? : ArgumentType → Option String
  | any => none
  | double => some "double"
  | numOrVec => some "numvec"
  | list => some "list"
  | entity => some "entity"
  | itemEntity => some "entity.item"

/-- The iotas of a type. -/
inductive Accepts : ArgumentType → Iota → Prop where
  | any (i) : Accepts any i
  | double (d) : Accepts double (.double d)
  | num (d) : Accepts numOrVec (.double d)
  | vec (v) : Accepts numOrVec (.vec3 v)
  | list (items) : Accepts list (.list items)
  | entity (e) : Accepts entity (.entity e)
  | itemEntity {e} (item : e.kind = .item) : Accepts itemEntity (.entity e)

end ArgumentType

/-- The types of the arguments of an operator, the deepest argument first. -/
def StockOperator.arguments : StockOperator → List ArgumentType
  | emptyList => []
  | singleton => [.any]
  | append => [.list, .any]
  | concat => [.list, .list]
  | index => [.list, .double]
  | listSize => [.list]
  | reverse => [.list]
  | add => [.numOrVec, .numOrVec]
  | sub => [.numOrVec, .numOrVec]
  | mul => [.numOrVec, .numOrVec]
  | div => [.numOrVec, .numOrVec]
  | entityPos => [.entity]
  | recharge => [.itemEntity]
  | craftBattery => [.itemEntity]

namespace Reading

variable {α : Type}

/-- A reading that takes a value out of just the iotas of a type, and asks for the type by name. -/
structure Takes (reading : Reading α) (type : ArgumentType) : Prop where
  wanted : type.wanted? = some reading.wanted
  accepts : ∀ i value, reading.read? i = some value → type.Accepts i
  refuses : ∀ i, reading.read? i = none → ¬ type.Accepts i

theorem double_takes : double.Takes .double where
  wanted := rfl
  accepts i value read := by cases i <;> cases read; exact .double _
  refuses i unread accepts := by cases accepts; cases unread

theorem numOrVec_takes : numOrVec.Takes .numOrVec where
  wanted := rfl
  accepts i value read := by
    cases i with
    | double d => exact .num d
    | vec3 v => exact .vec v
    | _ => cases read
  refuses i unread accepts := by cases accepts <;> cases unread

theorem list_takes : list.Takes .list where
  wanted := rfl
  accepts i value read := by cases i <;> cases read; exact .list _
  refuses i unread accepts := by cases accepts; cases unread

theorem entity_takes : entity.Takes .entity where
  wanted := rfl
  accepts i value read := by cases i <;> cases read; exact .entity _
  refuses i unread accepts := by cases accepts; cases unread

theorem itemEntity_takes : itemEntity.Takes .itemEntity where
  wanted := rfl
  accepts i ref read := by
    obtain ⟨rfl, item⟩ := itemEntity_eq_some read
    exact .itemEntity (of_decide_eq_true item)
  refuses i unread accepts := by
    cases accepts with
    | itemEntity item =>
        simp only [itemEntity, Iota.asEntity?, Option.filter_some, EntityRef.isItem, item,
          decide_true, if_true] at unread
        cases unread

end Reading

/-- An argument that fits is of the type asked for at its place. -/
def FitsAt (types : List ArgumentType) (args : List Iota) (place : Nat) : Prop :=
  ∀ type i, types[place]? = some type → args[place]? = some i → type.Accepts i

/-- The deepest argument, from a place on, that is of the wrong type; places count from the bottom
of the arguments. -/
structure FirstMisfit (types : List ArgumentType) (args : List Iota) (start place : Nat)
    (expected : String) (got : Iota) : Prop where
  start_le : start ≤ place
  here : args[place]? = some got
  wrong : ∃ type, types[place]? = some type ∧ type.wanted? = some expected ∧ ¬ type.Accepts got
  below : ∀ deeper, start ≤ deeper → deeper < place → FitsAt types args deeper

/-- An answer that blames the type of an argument. -/
def Blames {α : Type} (answer : Except Mishap α) : Prop :=
  ∃ index expected got, answer = .error (.invalidIota index expected got)

section

variable {α β : Type}

theorem not_blames_ok (value : α) : ¬ Blames (.ok value) := by
  rintro ⟨_, _, _, same⟩
  cases same

theorem not_blames_error {mishap : Mishap} (other : mishap.kind ≠ .invalidIota) :
    ¬ Blames (.error mishap : Except Mishap α) := by
  rintro ⟨_, _, _, same⟩
  cases same
  exact other rfl

theorem not_blames_bind {first : Except Mishap α} {next : α → Except Mishap β}
    (fair : ¬ Blames first) (blameless : ∀ value, ¬ Blames (next value)) :
    ¬ Blames (first >>= next) := by
  cases first with
  | error mishap =>
      rintro ⟨index, expected, got, same⟩
      cases same
      exact fair ⟨index, expected, got, rfl⟩
  | ok value => exact blameless value

end

/-- The answer of an operator whose arguments before a place fit: it blames the first that does not
fit, and no type where all fit. -/
inductive Checked {α : Type} (types : List ArgumentType) (args : List Iota) (start : Nat) :
    Except Mishap α → Prop where
  | misfit {place expected got} (first : FirstMisfit types args start place expected got) :
      Checked types args start (.error (.wrongType got place types.length expected))
  | fits {answer} (fit : ∀ place, start ≤ place → FitsAt types args place)
      (blameless : ¬ Blames answer) : Checked types args start answer

namespace Checked

variable {α β : Type} {types : List ArgumentType} {type : ArgumentType} {args : List Iota}
  {start : Nat}

theorem done {answer : Except Mishap α} (all : types.length ≤ start) (blameless : ¬ Blames answer) :
    Checked types args start answer := by
  refine .fits (fun place behind type i there => ?_) blameless
  rw [List.getElem?_eq_none (Nat.le_trans all behind)] at there
  cases there

theorem skip {answer : Except Mishap α} (fit : FitsAt types args start)
    (later : Checked types args (start + 1) answer) : Checked types args start answer := by
  have extend {place} (behind : start ≤ place) : place = start ∨ start + 1 ≤ place := by omega
  cases later with
  | misfit first =>
      refine .misfit ⟨Nat.le_of_succ_le first.start_le, first.here, first.wrong, ?_⟩
      intro deeper behind before
      rcases extend behind with rfl | behind
      · exact fit
      · exact first.below deeper behind before
  | fits fits blameless =>
      refine .fits (fun place behind => ?_) blameless
      rcases extend behind with rfl | behind
      · exact fit
      · exact fits place behind

theorem any {next : Iota → Except Mishap β} (there : types[start]? = some .any)
    (given : start < args.length)
    (each : ∀ i, Checked types args (start + 1) (next i)) :
    Checked types args start ((Arguments.mk args types.length).any start >>= next) := by
  have read : (Arguments.mk args types.length).any start = .ok args[start] := by
    simp only [Arguments.any, List.getElem?_eq_getElem given]
  rw [read]
  refine skip (fun type i same _ => ?_) (each args[start])
  cases there.symm.trans same
  exact .any i

theorem get {reading : Reading α} {next : α → Except Mishap β} (there : types[start]? = some type)
    (takes : reading.Takes type) (given : start < args.length)
    (each : ∀ value, Checked types args (start + 1) (next value)) :
    Checked types args start ((Arguments.mk args types.length).get reading start >>= next) := by
  have found := List.getElem?_eq_getElem given
  cases read : reading.read? args[start] with
  | none =>
      have blamed : (Arguments.mk args types.length).get reading start =
          .error (.wrongType args[start] start types.length reading.wanted) := by
        simp only [Arguments.get, Arguments.any, found, read]
      rw [blamed]
      refine .misfit ⟨Nat.le_refl _, found, ⟨type, there, takes.wanted, takes.refuses _ read⟩, ?_⟩
      exact fun deeper behind before => absurd before (Nat.not_lt.mpr behind)
  | some value =>
      have taken : (Arguments.mk args types.length).get reading start = .ok value := by
        simp only [Arguments.get, Arguments.any, found, read]
      rw [taken]
      refine skip (fun other i same at_ => ?_) (each value)
      cases there.symm.trans same
      cases found.symm.trans at_
      exact takes.accepts _ value read

theorem bind {first : Except Mishap α} {next : α → Except Mishap β}
    (checked : Checked types args start first) (blameless : ∀ value, ¬ Blames (next value)) :
    Checked types args start (first >>= next) := by
  cases checked with
  | misfit misfit => exact .misfit misfit
  | fits fit fair => exact .fits fit (not_blames_bind fair blameless)

end Checked

/-! ## The stock operators -/

section

variable {args : List Iota}

namespace Lists

theorem emptyList_checked : Checked [] args 0 (emptyList ⟨args, 0⟩) :=
  .done (Nat.le_refl _) (not_blames_ok _)

theorem singleton_checked (count : args.length = 1) :
    Checked [.any] args 0 (singleton ⟨args, 1⟩) := by
  refine .any rfl (by omega) fun x => ?_
  exact .done (Nat.le_refl _) (not_blames_ok _)

theorem append_checked (count : args.length = 2) :
    Checked [.list, .any] args 0 (append ⟨args, 2⟩) := by
  refine .get rfl Reading.list_takes (by omega) fun items => ?_
  refine .any rfl (by omega) fun x => ?_
  exact .done (Nat.le_refl _) (not_blames_ok _)

theorem concat_checked (count : args.length = 2) :
    Checked [.list, .list] args 0 (concat ⟨args, 2⟩) := by
  refine .get rfl Reading.list_takes (by omega) fun front => ?_
  refine .get rfl Reading.list_takes (by omega) fun back => ?_
  exact .done (Nat.le_refl _) (not_blames_ok _)

theorem index_checked (count : args.length = 2) :
    Checked [.list, .double] args 0 (index ⟨args, 2⟩) := by
  refine .get rfl Reading.list_takes (by omega) fun items => ?_
  refine .get rfl Reading.double_takes (by omega) fun place => ?_
  exact .done (Nat.le_refl _) (not_blames_ok _)

theorem ofList_checked (count : args.length = 1) (make : List Iota → List Iota) :
    Checked [.list] args 0 (do
      let items ← (Arguments.mk args 1).get .list 0
      return make items) := by
  refine .get rfl Reading.list_takes (by omega) fun items => ?_
  exact .done (Nat.le_refl _) (not_blames_ok _)

theorem size_checked (count : args.length = 1) : Checked [.list] args 0 (size ⟨args, 1⟩) :=
  ofList_checked count fun items => [.double (.ofNat items.length)]

theorem reverse_checked (count : args.length = 1) : Checked [.list] args 0 (reverse ⟨args, 1⟩) :=
  ofList_checked count fun items => [.list items.reverse]

end Lists

namespace Arithmetic

theorem operands_checked (count : args.length = 2) :
    Checked [.numOrVec, .numOrVec] args 0 (operands ⟨args, 2⟩) := by
  refine .get rfl Reading.numOrVec_takes (by omega) fun a => ?_
  refine .get rfl Reading.numOrVec_takes (by omega) fun b => ?_
  exact .done (Nat.le_refl _) (not_blames_ok _)

theorem combine_checked (count : args.length = 2) (combine : NumOrVec → NumOrVec → NumOrVec) :
    Checked [.numOrVec, .numOrVec] args 0 (do
      let (a, b) ← operands ⟨args, 2⟩
      return [(combine a b).toIota]) :=
  (operands_checked count).bind fun _ => not_blames_ok _

theorem div_checked (count : args.length = 2) :
    Checked [.numOrVec, .numOrVec] args 0 (div ⟨args, 2⟩) := by
  refine (operands_checked count).bind fun (a, b) => ?_
  dsimp only
  cases quotient? a b with
  | none => exact not_blames_error (nomatch ·)
  | some q => exact not_blames_ok _

end Arithmetic

variable {ω : Type}

namespace Adapter

theorem const_checked {operator : ConstOperator ω} {types : List ArgumentType} {w : ω}
    (checked : Checked types args 0 (operator.execute args w)) :
    Checked types args 0 ((const operator).execute args w) := by
  have through : (const operator).execute args w =
      operator.execute args w >>= fun results =>
        .ok (results, SideEffect.charge operator.cost) := by
    cases executed : operator.execute args w <;> simp only [execute, executed] <;> rfl
  rw [through]
  exact checked.bind fun _ => not_blames_ok _

theorem spell_checked {operator : SpellOperator ω} {types : List ArgumentType} {w : ω}
    (checked : Checked types args 0 (operator.execute args w)) :
    Checked types args 0 ((spell operator).execute args w) := by
  have through : (spell operator).execute args w = operator.execute args w >>= fun cast =>
      .ok ([], match cast with
        | none => []
        | some cast => cast.effects operator.castSound) := by
    rcases executed : operator.execute args w with mishap | _ | cast <;>
      simp only [execute, executed] <;> rfl
  rw [through]
  exact checked.bind fun _ => not_blames_ok _

end Adapter

variable [CastingEnv ω]

theorem CastingEnv.reachable_blameless (w : ω) (ref : EntityRef) : ¬ Blames (reachable w ref) := by
  rcases reachable_cases w ref with ⟨state, -, -, reached⟩ | ⟨-, refused⟩
  · rw [reached]
    exact not_blames_ok _
  · rw [refused]
    exact not_blames_error (nomatch ·)

theorem StockOperator.entityPosition_checked (count : args.length = 1) (w : ω) :
    Checked [.entity] args 0 (entityPosition ⟨args, 1⟩ w) := by
  refine .get rfl Reading.entity_takes (by omega) fun ref => ?_
  refine .done (Nat.le_refl _) ?_
  exact not_blames_bind (CastingEnv.reachable_blameless w ref) fun state => not_blames_ok _

theorem Recharge.evaluate_checked (count : args.length = 1) (w : ω) :
    Checked [.itemEntity] args 0 (evaluate args w) := by
  refine .get rfl Reading.itemEntity_takes (by omega) fun ref => ?_
  refine .done (Nat.le_refl _) ?_
  dsimp only
  split
  · exact not_blames_error (nomatch ·)
  · refine not_blames_bind (CastingEnv.reachable_blameless w ref) fun state => ?_
    split
    · split <;> exact not_blames_ok _
    · exact not_blames_error (nomatch ·)

theorem CraftBattery.evaluate_checked (count : args.length = 1) (w : ω) :
    Checked [.itemEntity] args 0 (evaluate args w) := by
  refine .get rfl Reading.itemEntity_takes (by omega) fun ref => ?_
  refine .done (Nat.le_refl _) ?_
  dsimp only
  split
  · exact not_blames_error (nomatch ·)
  · split
    · exact not_blames_error (nomatch ·)
    · refine not_blames_bind (CastingEnv.reachable_blameless w ref) fun state => ?_
      split
      · exact not_blames_error (nomatch ·)
      · exact not_blames_ok _

namespace StockOperator

theorem argc_adapter (op : StockOperator) : (op.adapter : Adapter ω).argc = op.argc := by
  cases op <;> rfl

/-- Given as many arguments as it takes, a stock operator blames the deepest that does not fit. -/
theorem execute_checked (op : StockOperator)
    (count : args.length = (op.adapter : Adapter ω).argc) (w : ω) :
    Checked op.arguments args 0 (op.adapter.execute args w) := by
  cases op with
  | emptyList => exact Adapter.const_checked Lists.emptyList_checked
  | singleton => exact Adapter.const_checked (Lists.singleton_checked count)
  | append => exact Adapter.const_checked (Lists.append_checked count)
  | concat => exact Adapter.const_checked (Lists.concat_checked count)
  | index => exact Adapter.const_checked (Lists.index_checked count)
  | listSize => exact Adapter.const_checked (Lists.size_checked count)
  | reverse => exact Adapter.const_checked (Lists.reverse_checked count)
  | add => exact Adapter.const_checked (Arithmetic.combine_checked count Arithmetic.sum)
  | sub => exact Adapter.const_checked (Arithmetic.combine_checked count Arithmetic.difference)
  | mul => exact Adapter.const_checked (Arithmetic.combine_checked count Arithmetic.product)
  | div => exact Adapter.const_checked (Arithmetic.div_checked count)
  | entityPos => exact Adapter.const_checked (entityPosition_checked count w)
  | recharge =>
      refine Adapter.spell_checked ((Recharge.evaluate_checked count w).bind fun answer => ?_)
      cases answer <;> exact not_blames_ok _
  | craftBattery =>
      refine Adapter.spell_checked ((CraftBattery.evaluate_checked count w).bind fun answer => ?_)
      cases answer <;> exact not_blames_ok _

end StockOperator

end

/-! ## Places on the stack -/

/-- An iota on a stack, at a place counted from the top, that is an argument of the wrong type; the
arguments that lie deeper fit. -/
structure StockOperator.Misfit (op : StockOperator) (stack : List Iota) (index : Nat)
    (expected : String) (got : Iota) : Prop where
  enough : op.argc ≤ stack.length
  inside : index < op.argc
  here : stack.reverse[index]? = some got
  wrong : ∃ type, op.arguments.reverse[index]? = some type ∧ type.wanted? = some expected ∧
    ¬ type.Accepts got
  deeper : ∀ place, index < place → FitsAt op.arguments.reverse stack.reverse place

section

variable {op : StockOperator} {rest args : List Iota} {place : Nat} {expected : String} {got : Iota}

namespace StockOperator

theorem length_arguments_eq (op : StockOperator) : op.arguments.length = op.argc := by
  cases op <;> rfl

theorem argc_le (op : StockOperator) : op.argc ≤ 2 := by cases op <;> decide

end StockOperator

theorem reverse_append_getElem? (rest args : List Iota) {index : Nat}
    (inside : index < args.length) :
    (rest ++ args).reverse[index]? = args[args.length - 1 - index]? := by
  rw [List.reverse_append, List.getElem?_append_left (by rwa [List.length_reverse]),
    List.getElem?_reverse inside]

theorem FitsAt.reverse (rest : List Iota) (count : args.length = op.argc)
    (fit : place < op.argc → FitsAt op.arguments args (op.argc - 1 - place)) :
    FitsAt op.arguments.reverse (rest ++ args).reverse place := by
  intro type i there lies
  have types := op.length_arguments_eq
  obtain ⟨inside, -⟩ := List.getElem?_eq_some_iff.mp there
  rw [List.length_reverse, types] at inside
  rw [List.getElem?_reverse (by omega), types] at there
  rw [reverse_append_getElem? rest args (by omega), count] at lies
  exact fit inside type i there lies

theorem FirstMisfit.misfit (rest : List Iota) (count : args.length = op.argc)
    (first : FirstMisfit op.arguments args 0 place expected got) :
    op.Misfit (rest ++ args) (op.argc - (place + 1)) expected got := by
  have types := op.length_arguments_eq
  obtain ⟨before, -⟩ := List.getElem?_eq_some_iff.mp first.here
  have back : op.argc - 1 - (op.argc - (place + 1)) = place := by omega
  refine ⟨?_, by omega, ?_, ?_, ?_⟩
  · rw [List.length_append]
    omega
  · rw [reverse_append_getElem? rest args (by omega), count, back]
    exact first.here
  · obtain ⟨type, there, wrong⟩ := first.wrong
    refine ⟨type, ?_, wrong⟩
    rwa [List.getElem?_reverse (by omega), types, back]
  · intro other above
    exact .reverse rest count fun inside => first.below _ (Nat.zero_le _) (by omega)

theorem StockOperator.wrongType_eq (op : StockOperator) (before : place < op.argc)
    (expected : String) (got : Iota) :
    ∃ index : UInt64, index.toNat = op.argc - (place + 1) ∧
      Mishap.wrongType got place op.argc expected = .invalidIota index expected got := by
  have small : op.argc - (place + 1) < UInt64.size :=
    Nat.lt_of_le_of_lt (Nat.le_trans (Nat.sub_le _ _) op.argc_le) (by decide)
  refine ⟨.ofNat (Mishap.placeFromTop place op.argc), ?_, rfl⟩
  rw [Mishap.placeFromTop, if_neg (by omega), UInt64.toNat_ofNat_of_lt' small]

end

/-- With its arguments on top of a stack, an operator blames the deepest that does not fit, or they
all fit and it blames none. -/
theorem StockOperator.misfit_or_fits {ω : Type} [CastingEnv ω] (op : StockOperator)
    (rest : List Iota) {args : List Iota} (count : args.length = op.argc) (w : ω) :
    (∃ index expected got, op.Misfit (rest ++ args) index.toNat expected got ∧
      op.adapter.execute args w = .error (.invalidIota index expected got)) ∨
    (∀ place, FitsAt op.arguments.reverse (rest ++ args).reverse place) ∧
      ¬ Blames (op.adapter.execute args w) := by
  have checked := op.execute_checked (count.trans op.argc_adapter.symm) w
  generalize op.adapter.execute args w = answer at checked ⊢
  cases checked with
  | @misfit place expected got first =>
      obtain ⟨inside, -⟩ := List.getElem?_eq_some_iff.mp first.here
      obtain ⟨index, counted, named⟩ := op.wrongType_eq (count ▸ inside) expected got
      rw [op.length_arguments_eq, named]
      exact .inl ⟨index, expected, got, counted ▸ first.misfit rest count, rfl⟩
  | fits fit blameless =>
      exact .inr ⟨fun place => .reverse rest count fun _ => fit _ (Nat.zero_le _), blameless⟩

namespace CastingState

variable {ω : Type} [CastingEnv ω] {w w' : ω} {s after : CastingState} {op : StockOperator}
  {program : List (Instruction (Operator ω))} {place : Nat} {index : UInt64} {expected : String}
  {got : Iota}

theorem misfit_of_evaluate
    (made : s.evaluate op.toOperator w = (after, .error (.invalidIota index expected got))) :
    op.Misfit s.stack index.toNat expected got := by
  have taken : s.step (.operator op.toOperator) w = _ := made
  generalize answer : (Except.error (.invalidIota index expected got) :
    Except Mishap (List (SideEffect ω))) = result at taken
  cases stepsTo_iff.mpr taken with
  | refuse left whole count executed =>
      cases answer
      rw [op.argc_adapter] at count
      rcases op.misfit_or_fits _ count w with ⟨_, _, _, misfit, blamed⟩ | ⟨-, blameless⟩
      · cases executed.symm.trans blamed
        rwa [whole]
      · exact absurd ⟨index, expected, got, executed⟩ blameless
  | _ => cases answer

theorem blames_of_not_fitsAt (left : s.evaluated < s.limits.maxOpCount.toNat)
    (enough : op.argc ≤ s.stack.length) (w : ω)
    (wrong : ¬ FitsAt op.arguments.reverse s.stack.reverse place) :
    Blames (s.evaluate op.toOperator w).2 := by
  obtain ⟨rest, args, whole, count⟩ := exists_top enough
  rcases op.misfit_or_fits _ count w with ⟨index, expected, got, -, blamed⟩ | ⟨fit, -⟩
  · have refused : s.evaluate op.toOperator w = _ :=
      (StepsTo.refuse left whole (count.trans op.argc_adapter.symm) blamed).step
    rw [refused]
    exact ⟨index, expected, got, rfl⟩
  · rw [← whole] at fit
    exact absurd (fit place) wrong

theorem exists_operator_of_castBatch
    (cast : s.castBatch program w =
      (after, w', .error ⟨some place, .invalidIota index expected got⟩)) :
    ∃ mid pending op reached,
      s.resetBudget.evaluateAll (program.take place) w = (mid, .ok pending) ∧
      program[place]? = some (.operator op) ∧
      mid.evaluate op w = (reached, .error (.invalidIota index expected got)) := by
  obtain ⟨reached, stop⟩ := castBatch_stopped cast
  obtain ⟨mid, effects, instruction, run, there, stopped⟩ := stop.exists_step
  cases instruction with
  | literal iota =>
      generalize answer : (Except.error (.invalidIota index expected got) :
        Except Mishap (List (SideEffect ω))) = result at stopped
      cases stepsTo_iff.mpr stopped <;> cases answer
  | operator op => exact ⟨mid, _, op, reached, run.evaluateFrom 0 .none, there, stopped⟩

theorem blames_of_evaluateAll {mid : CastingState} {pending : Pending ω}
    (run : s.resetBudget.evaluateAll (program.take place) w = (mid, .ok pending))
    (there : program[place]? = some (.operator op.toOperator))
    (blames : Blames (mid.evaluate op.toOperator w).2) :
    ∃ index expected got, (s.castBatch program w).2.2 =
      .error ⟨some place, .invalidIota index expected got⟩ := by
  obtain ⟨effects, run, -⟩ := evaluateFrom_ok run
  obtain ⟨index, expected, got, blamed⟩ := blames
  have stopped : mid.step (.operator op.toOperator) w =
      ((mid.evaluate op.toOperator w).1, .error (.invalidIota index expected got)) :=
    Prod.ext rfl blamed
  obtain ⟨inside, same⟩ := List.getElem?_eq_some_iff.mp there
  have parts : program = program.take place ++
      .operator op.toOperator :: program.drop (place + 1) := by
    rw [← same, ← List.drop_eq_getElem_cons inside, List.take_append_drop]
  have stop : Stops w s.resetBudget program place (mid.evaluate op.toOperator w).1
      (.invalidIota index expected got) := by
    have here : Stops w mid (.operator op.toOperator :: program.drop (place + 1)) 0 _ _ :=
      .here stopped
    have behind := run.stops here
    rwa [← parts, List.length_take, Nat.min_eq_left (Nat.le_of_lt inside), Nat.add_zero] at behind
  exact ⟨index, expected, got, congrArg (·.2.2) stop.castBatch⟩

end CastingState

/-- The mishap of a wrong type names the deepest argument that does not fit, and there is such a
mishap whenever an argument does not fit, in a single evaluation as in a batch. -/
theorem wrong_types_are_blamed_where_they_lie {ω : Type} [CastingEnv ω] (w : ω) :
    (∀ (op : StockOperator) (s after : CastingState) (index : UInt64) (expected : String)
        (got : Iota),
      s.evaluate op.toOperator w = (after, .error (.invalidIota index expected got)) →
      op.Misfit s.stack index.toNat expected got) ∧
    (∀ (op : StockOperator) (s : CastingState),
      s.evaluated < s.limits.maxOpCount.toNat →
      op.argc ≤ s.stack.length →
      (∃ place, ¬ FitsAt op.arguments.reverse s.stack.reverse place) →
      Blames (s.evaluate op.toOperator w).2) ∧
    ∀ (s : CastingState) (program : List (Instruction (Operator ω))) (i : Nat),
      (∀ after w' index expected got,
        s.castBatch program w =
          (after, w', .error ⟨some i, .invalidIota index expected got⟩) →
        ∃ mid pending op, s.resetBudget.evaluateAll (program.take i) w = (mid, .ok pending) ∧
          program[i]? = some (.operator op) ∧
          ∀ stock : StockOperator, op = stock.toOperator →
            stock.Misfit mid.stack index.toNat expected got) ∧
      ∀ mid pending (op : StockOperator),
        s.resetBudget.evaluateAll (program.take i) w = (mid, .ok pending) →
        program[i]? = some (.operator op.toOperator) →
        mid.evaluated < mid.limits.maxOpCount.toNat →
        op.argc ≤ mid.stack.length →
        (∃ place, ¬ FitsAt op.arguments.reverse mid.stack.reverse place) →
        ∃ index expected got, (s.castBatch program w).2.2 =
          .error ⟨some i, .invalidIota index expected got⟩ := by
  refine ⟨fun op s after index expected got made => CastingState.misfit_of_evaluate made, ?_, ?_⟩
  · rintro op s left enough ⟨place, wrong⟩
    exact CastingState.blames_of_not_fitsAt left enough w wrong
  · refine fun s program i => ⟨fun after w' index expected got cast => ?_, ?_⟩
    · obtain ⟨mid, pending, op, reached, run, there, made⟩ :=
        CastingState.exists_operator_of_castBatch cast
      refine ⟨mid, pending, op, run, there, ?_⟩
      rintro stock rfl
      exact CastingState.misfit_of_evaluate made
    · rintro mid pending op run there left enough ⟨place, wrong⟩
      exact CastingState.blames_of_evaluateAll run there
        (CastingState.blames_of_not_fitsAt left enough w wrong)

/-- A list that lies on the number instead of under it is passed over: the number is blamed, one
below the top, also where a batch has put the list there itself. -/
theorem swapped_arguments_are_blamed_at_the_number :
    let op := StockOperator.index
    let program : List (Instruction (Operator World)) :=
      [.literal (.list []), .operator op.toOperator]
    let s : CastingState := .new .standard [.double 1, .list []]
    let bare : CastingState := .new .standard [.double 1]
    op.Misfit s.stack 1 "list" (.double 1) ∧
    Blames (s.evaluate op.toOperator World.initial).2 ∧
    (∃ mid pending asked,
      bare.resetBudget.evaluateAll (program.take 1) World.initial = (mid, .ok pending) ∧
      program[1]? = some (.operator asked) ∧
      ∀ stock : StockOperator, asked = stock.toOperator →
        stock.Misfit mid.stack 1 "list" (.double 1)) ∧
    ∃ index expected got, (bare.castBatch program World.initial).2.2 =
      .error ⟨some 1, .invalidIota index expected got⟩ := by
  intro op program s bare
  obtain ⟨blamed, blames, batch⟩ := wrong_types_are_blamed_where_they_lie World.initial
  have wrong : ¬ FitsAt op.arguments.reverse s.stack.reverse 1 := fun fit =>
    nomatch fit .list (.double 1) rfl rfl
  refine ⟨blamed op s _ 1 _ _ rfl, blames op s (by decide) (by decide) ⟨1, wrong⟩, ?_, ?_⟩
  · exact (batch bare program 1).1 _ _ 1 _ _ rfl
  · exact (batch bare program 1).2 s .none op rfl rfl (by decide) (by decide) ⟨1, wrong⟩

end Spellcasting
