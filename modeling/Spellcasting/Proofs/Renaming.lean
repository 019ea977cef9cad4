import Spellcasting.Proofs.StockPrograms

/-! # Renamed identities

References, and all that holds some, may have their identities renamed. What stock operators and
their spells do with a value does not depend on the identities in it. For what they ask of a world
`Mirrors` says how a change of the world goes along with a renaming: evaluation in the changed world
gives the renamed answer, and a renamed spell changes it as the spell changes the world itself.
-/

namespace Spellcasting

section

variable (f : EntityId → EntityId)

def EntityRef.rename (ref : EntityRef) : EntityRef := { ref with id := f ref.id }

namespace Iota

mutual

/-- An iota with its references renamed at all depths. -/
def rename : Iota → Iota
  | list items => list (renameAll items)
  | entity ref => entity (ref.rename f)
  | i => i

def renameAll : List Iota → List Iota
  | [] => []
  | i :: rest => rename i :: renameAll rest

end

theorem renameAll_eq_map (items : List Iota) : renameAll f items = items.map (rename f) := by
  induction items with
  | nil => rfl
  | cons i rest ih => simp only [renameAll, ih, List.map_cons]

theorem rename_list (items : List Iota) : (list items).rename f = list (items.map (rename f)) := by
  rw [rename, renameAll_eq_map]

end Iota

/-- A mishap with the references in it renamed. -/
def Mishap.rename : Mishap → Mishap
  | invalidIota index expected got => invalidIota index expected (got.rename f)
  | badItem entity item wanted => badItem (entity.rename f) item wanted
  | entityTooFarAway entity => entityTooFarAway (entity.rename f)
  | divideByZero operand1 operand2 => divideByZero (operand1.rename f) (operand2.rename f)
  | m => m

/-- An answer with its mishap renamed, and its value by a renaming of its own. -/
def renameAnswer {α β : Type} (g : α → β) : Except Mishap α → Except Mishap β
  | .ok value => .ok (g value)
  | .error m => .error (m.rename f)

def EntityState.rename (e : EntityState) : EntityState := { e with ref := e.ref.rename f }

def Recharge.rename (spell : Recharge) : Recharge := { spell with target := f spell.target }

def CraftBattery.rename (spell : CraftBattery) : CraftBattery :=
  { spell with target := f spell.target }

/-- A spell with its target renamed; a change of another kind names none. -/
def Spell.rename {ω : Type} : Spell ω → Spell ω
  | recharge spell => recharge (spell.rename f)
  | craftBattery spell => craftBattery (spell.rename f)
  | custom change => custom change

def SideEffect.rename {ω : Type} : SideEffect ω → SideEffect ω
  | attemptSpell spell castSound => attemptSpell (spell.rename f) castSound
  | effect => effect

def SpellCast.rename {ω : Type} (cast : SpellCast ω) : SpellCast ω :=
  { cast with spell := cast.spell.rename f }

def Instruction.rename {α : Type} : Instruction α → Instruction α
  | literal iota => literal (iota.rename f)
  | operator op => operator op

def Arguments.rename (a : Arguments) : Arguments := { a with values := a.values.map (Iota.rename f) }

end

section

variable {f : EntityId → EntityId}

theorem renameAnswer_bind {α β γ δ : Type} {first : Except Mishap α} {next : α → Except Mishap β}
    {g : α → γ} {h : β → δ} {other : γ → Except Mishap δ}
    (each : ∀ value, first = .ok value → other (g value) = renameAnswer f h (next value)) :
    renameAnswer f g first >>= other = renameAnswer f h (first >>= next) := by
  cases first with
  | error m => rfl
  | ok value => exact each value rfl

theorem renameAnswer_ite {α β : Type} {condition : Prop} [Decidable condition] (g : α → β)
    (yes no : Except Mishap α) :
    renameAnswer f g (if condition then yes else no) =
      if condition then renameAnswer f g yes else renameAnswer f g no :=
  apply_ite (renameAnswer f g) condition yes no

namespace Arguments

theorem any_rename (a : Arguments) (idx : Nat) :
    (a.rename f).any idx = renameAnswer f (Iota.rename f) (a.any idx) := by
  simp only [any, rename, List.getElem?_map, List.length_map]
  cases a.values[idx]? <;> rfl

/-- A reading that finds a renamed value in a renamed iota, if it finds one at all. -/
def RenamesBy {α : Type} (f : EntityId → EntityId) (reading : Reading α) (g : α → α) : Prop :=
  ∀ i : Iota, reading.read? (i.rename f) = (reading.read? i).map g

theorem get_rename {α : Type} {reading : Reading α} {g : α → α} (renames : RenamesBy f reading g)
    (a : Arguments) (idx : Nat) :
    (a.rename f).get reading idx = renameAnswer f g (a.get reading idx) := by
  unfold get
  rw [any_rename]
  cases a.any idx with
  | error m => rfl
  | ok i =>
      simp only [renameAnswer, renames i]
      cases reading.read? i <;> rfl

end Arguments

namespace Reading

open Arguments

theorem double_renames : RenamesBy f double id := by
  intro i
  cases i <;> rfl

theorem numOrVec_renames : RenamesBy f numOrVec id := by
  intro i
  cases i <;> rfl

theorem list_renames : RenamesBy f list (List.map (Iota.rename f)) := by
  intro i
  cases i with
  | list items => rw [Iota.rename_list]; rfl
  | _ => rfl

theorem entity_renames : RenamesBy f entity (EntityRef.rename f) := by
  intro i
  cases i <;> rfl

theorem itemEntity_renames : RenamesBy f itemEntity (EntityRef.rename f) := by
  intro i
  cases i with
  | entity ref =>
      have same : (ref.rename f).isItem = ref.isItem := rfl
      change (some (ref.rename f)).filter _ = ((some ref).filter _).map _
      simp only [Option.filter_some, same]
      split <;> rfl
  | _ => rfl

end Reading

/-- Results that do not depend on the identities in the arguments, but for being renamed with them.
-/
def Equivariant (f : EntityId → EntityId) (run : Arguments → Except Mishap (List Iota)) : Prop :=
  ∀ args, run (args.rename f) = renameAnswer f (List.map (Iota.rename f)) (run args)

namespace Lists

theorem emptyList_equivariant : Equivariant f emptyList := fun _ => rfl

theorem singleton_equivariant : Equivariant f singleton := by
  intro args
  unfold singleton
  rw [args.any_rename]
  apply renameAnswer_bind
  intro x _
  change _ = Except.ok [(Iota.list [x]).rename f]
  rw [Iota.rename_list]
  rfl

theorem append_equivariant : Equivariant f append := by
  intro args
  unfold append
  rw [args.get_rename Reading.list_renames]
  apply renameAnswer_bind
  intro items _
  rw [args.any_rename]
  apply renameAnswer_bind
  intro x _
  change _ = Except.ok [(Iota.list (items ++ [x])).rename f]
  rw [Iota.rename_list, List.map_append]
  rfl

theorem concat_equivariant : Equivariant f concat := by
  intro args
  unfold concat
  rw [args.get_rename Reading.list_renames]
  apply renameAnswer_bind
  intro front _
  rw [args.get_rename Reading.list_renames]
  apply renameAnswer_bind
  intro back _
  change _ = Except.ok [(Iota.list (front ++ back)).rename f]
  rw [Iota.rename_list, List.map_append]
  rfl

theorem at?_rename (items : List Iota) (place : Double) :
    at? (items.map (Iota.rename f)) place = (at? items place).rename f := by
  unfold at?
  simp only [List.length_map, List.getD_eq_getElem?_getD, List.getElem?_map]
  split
  · cases items[(Decimal.nearest place).toWord.toNat]? <;> rfl
  · rfl

theorem index_equivariant : Equivariant f index := by
  intro args
  unfold index
  rw [args.get_rename Reading.list_renames]
  apply renameAnswer_bind
  intro items _
  rw [args.get_rename Reading.double_renames]
  apply renameAnswer_bind
  intro place _
  rw [id, at?_rename]
  rfl

theorem size_equivariant : Equivariant f size := by
  intro args
  unfold size
  rw [args.get_rename Reading.list_renames]
  apply renameAnswer_bind
  intro items _
  rw [List.length_map]
  rfl

theorem reverse_equivariant : Equivariant f reverse := by
  intro args
  unfold reverse
  rw [args.get_rename Reading.list_renames]
  apply renameAnswer_bind
  intro items _
  change _ = Except.ok [(Iota.list items.reverse).rename f]
  rw [Iota.rename_list, List.map_reverse]
  rfl

end Lists

namespace Arithmetic

theorem operands_rename (args : Arguments) :
    operands (args.rename f) = renameAnswer f id (operands args) := by
  unfold operands
  rw [args.get_rename Reading.numOrVec_renames]
  apply renameAnswer_bind
  intro a _
  rw [args.get_rename Reading.numOrVec_renames]
  exact renameAnswer_bind fun b _ => rfl

theorem rename_toIota (value : NumOrVec) : value.toIota.rename f = value.toIota := by
  cases value <;> rfl

theorem combine_equivariant (combine : NumOrVec → NumOrVec → NumOrVec) :
    Equivariant f fun args => do
      let (a, b) ← operands args
      return [(combine a b).toIota] := by
  intro args
  dsimp only
  rw [operands_rename]
  apply renameAnswer_bind
  intro pair _
  change _ = Except.ok [(combine pair.1 pair.2).toIota.rename f]
  rw [rename_toIota]
  rfl

theorem add_equivariant : Equivariant f add := combine_equivariant sum

theorem sub_equivariant : Equivariant f sub := combine_equivariant difference

theorem mul_equivariant : Equivariant f mul := combine_equivariant product

theorem div_equivariant : Equivariant f div := by
  intro args
  unfold div
  rw [operands_rename]
  apply renameAnswer_bind
  intro (a, b) _
  dsimp only [id]
  cases quotient? a b with
  | none => simp only [renameAnswer, Mishap.rename, rename_toIota]
  | some q =>
      change _ = Except.ok [q.toIota.rename f]
      rw [rename_toIota]
      rfl

end Arithmetic

theorem SideEffect.charge_rename {ω : Type} (amount : Media) :
    (charge amount : List (SideEffect ω)).map (rename f) = charge amount := by
  unfold charge
  split <;> rfl

theorem SpellCast.effects_rename {ω : Type} (cast : SpellCast ω) (castSound : Bool) :
    (cast.effects castSound).map (SideEffect.rename f) = (cast.rename f).effects castSound := by
  simp only [effects, List.map_append, SideEffect.charge_rename, List.map_cons, List.map_map]
  rfl

theorem SideEffect.spells_rename {ω : Type} (effects : List (SideEffect ω)) :
    spells (effects.map (rename f)) = (spells effects).map (Spell.rename f) := by
  induction effects with
  | nil => rfl
  | cons effect rest ih =>
      cases effect with
      | attemptSpell spell castSound => exact congrArg (spell.rename f :: ·) ih
      | consumeMedia | particles => exact ih

/-- What an operator makes of its arguments, with all identities renamed. -/
abbrev renameMade {ω : Type} (f : EntityId → EntityId) :
    List Iota × List (SideEffect ω) → List Iota × List (SideEffect ω) :=
  Prod.map (List.map (Iota.rename f)) (List.map (SideEffect.rename f))

theorem StockOperator.plain_rename {ω : Type} {op : StockOperator}
    {run : Arguments → Except Mishap (List Iota)} (equivariant : Equivariant f run)
    (args : List Iota) (v w : ω) :
    (op.plain run).execute (args.map (Iota.rename f)) v =
      renameAnswer f (renameMade f) ((op.plain run).execute args w) := by
  have ran : run ⟨args.map (Iota.rename f), op.argc⟩ = _ := equivariant ⟨args, op.argc⟩
  simp only [plain, Adapter.execute, ran]
  cases run ⟨args, op.argc⟩ with
  | error mishap => rfl
  | ok results =>
      simp only [renameAnswer, renameMade, Prod.map_apply, SideEffect.charge_rename]

end

end Spellcasting
