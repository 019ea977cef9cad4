import Spellcasting.Proofs.Commits
import Spellcasting.Proofs.StockPrograms

/-! # References are only moved about

Operators take references from their arguments and never make one up. So all that a cast can ask a
world for, or act on, are the entities that its stack and its literals refer to, and the stack that
it leaves refers to no others.
-/

namespace Spellcasting

namespace Iota

mutual

/-- The identities that an iota refers to, at any depth. -/
def ids : Iota → List EntityId
  | list items => idsAll items
  | entity ref => [ref.id]
  | null | double _ | bool _ | vec3 _ | item _ | pattern _ | garbage => []

/-- The identities that some iotas refer to. -/
def idsAll : List Iota → List EntityId
  | [] => []
  | i :: rest => ids i ++ idsAll rest

end

theorem idsAll_append (front back : List Iota) :
    idsAll (front ++ back) = idsAll front ++ idsAll back := by
  induction front with
  | nil => rfl
  | cons i rest ih => simp only [List.cons_append, idsAll, ih, List.append_assoc]

theorem idsAll_singleton (i : Iota) : idsAll [i] = i.ids := List.append_nil _

theorem ids_subset_of_mem {items : List Iota} {i : Iota} (member : i ∈ items) :
    i.ids ⊆ idsAll items := by
  induction member with
  | head rest => exact List.subset_append_left _ _
  | tail first _ ih => exact List.subset_append_of_subset_right _ ih

theorem idsAll_subset {items : List Iota} {known : List EntityId}
    (each : ∀ i ∈ items, i.ids ⊆ known) : idsAll items ⊆ known := by
  induction items with
  | nil => exact List.nil_subset _
  | cons i rest ih =>
      refine List.append_subset.mpr ⟨each i List.mem_cons_self, ih fun other member => ?_⟩
      exact each other (List.mem_cons_of_mem _ member)

end Iota

namespace Arguments

variable {a : Arguments}

theorem any_ids {idx : Nat} {i : Iota} (h : a.any idx = .ok i) : i.ids ⊆ Iota.idsAll a.values :=
  Iota.ids_subset_of_mem (List.mem_of_getElem? (any_ok h))

theorem list_ids {idx : Nat} {items : List Iota} (h : a.get .list idx = .ok items) :
    Iota.idsAll items ⊆ Iota.idsAll a.values := by
  obtain ⟨i, found, read⟩ := get_ok h
  cases i with
  | list => cases read; exact Iota.ids_subset_of_mem (List.mem_of_getElem? found)
  | _ => cases read

theorem entity_ids {idx : Nat} {ref : EntityRef} (h : a.get .entity idx = .ok ref) :
    ref.id ∈ Iota.idsAll a.values := by
  obtain ⟨i, found, read⟩ := get_ok h
  cases i with
  | entity =>
      cases read
      exact Iota.ids_subset_of_mem (List.mem_of_getElem? found) List.mem_cons_self
  | _ => cases read

theorem itemEntity_ids {idx : Nat} {ref : EntityRef} (h : a.get .itemEntity idx = .ok ref) :
    ref.id ∈ Iota.idsAll a.values := by
  obtain ⟨i, found, read⟩ := get_ok h
  obtain ⟨rfl, -⟩ := Reading.itemEntity_eq_some read
  exact Iota.ids_subset_of_mem (List.mem_of_getElem? found) List.mem_cons_self

end Arguments

/-- Results that refer only to what the arguments refer to. -/
def KeepsReferences (run : Arguments → Except Mishap (List Iota)) : Prop :=
  ∀ args results, run args = .ok results → Iota.idsAll results ⊆ Iota.idsAll args.values

namespace Lists

theorem emptyList_keeps : KeepsReferences emptyList := by
  intro args results h
  cases h
  exact List.nil_subset _

theorem singleton_keeps : KeepsReferences singleton := by
  intro args results h
  obtain ⟨x, member, h⟩ := bind_ok h
  cases h
  rw [Iota.idsAll_singleton, Iota.ids, Iota.idsAll_singleton]
  exact Arguments.any_ids member

theorem append_keeps : KeepsReferences append := by
  intro args results h
  obtain ⟨items, front, h⟩ := bind_ok h
  obtain ⟨x, last, h⟩ := bind_ok h
  cases h
  rw [Iota.idsAll_singleton, Iota.ids, Iota.idsAll_append, Iota.idsAll_singleton]
  exact List.append_subset.mpr ⟨Arguments.list_ids front, Arguments.any_ids last⟩

theorem concat_keeps : KeepsReferences concat := by
  intro args results h
  obtain ⟨items, front, h⟩ := bind_ok h
  obtain ⟨others, back, h⟩ := bind_ok h
  cases h
  rw [Iota.idsAll_singleton, Iota.ids, Iota.idsAll_append]
  exact List.append_subset.mpr ⟨Arguments.list_ids front, Arguments.list_ids back⟩

theorem ids_at? (items : List Iota) (place : Double) :
    (at? items place).ids ⊆ Iota.idsAll items := by
  unfold at?
  dsimp only
  split
  · rw [List.getD_eq_getElem?_getD]
    cases member : items[(Decimal.nearest place).toWord.toNat]? with
    | none => exact List.nil_subset _
    | some i => exact Iota.ids_subset_of_mem (List.mem_of_getElem? member)
  · exact List.nil_subset _

theorem index_keeps : KeepsReferences index := by
  intro args results h
  obtain ⟨items, list, h⟩ := bind_ok h
  obtain ⟨place, -, h⟩ := bind_ok h
  cases h
  rw [Iota.idsAll_singleton]
  exact List.Subset.trans (ids_at? items place) (Arguments.list_ids list)

theorem size_keeps : KeepsReferences size := by
  intro args results h
  obtain ⟨items, -, h⟩ := bind_ok h
  cases h
  exact List.nil_subset _

theorem reverse_keeps : KeepsReferences reverse := by
  intro args results h
  obtain ⟨items, list, h⟩ := bind_ok h
  cases h
  rw [Iota.idsAll_singleton, Iota.ids]
  refine Iota.idsAll_subset fun i member => ?_
  have kept := Iota.ids_subset_of_mem (List.mem_reverse.mp member)
  exact List.Subset.trans kept (Arguments.list_ids list)

end Lists

namespace Arithmetic

theorem idsAll_toIota (value : NumOrVec) : Iota.idsAll [value.toIota] = [] := by
  cases value <;> rfl

theorem combine_keeps (combine : NumOrVec → NumOrVec → NumOrVec) :
    KeepsReferences fun args => do
      let (a, b) ← operands args
      return [(combine a b).toIota] := by
  intro args results h
  obtain ⟨⟨a, b⟩, -, h⟩ := bind_ok h
  cases h
  rw [idsAll_toIota]
  exact List.nil_subset _

theorem add_keeps : KeepsReferences add := combine_keeps sum

theorem sub_keeps : KeepsReferences sub := combine_keeps difference

theorem mul_keeps : KeepsReferences mul := combine_keeps product

theorem div_keeps : KeepsReferences div := by
  intro args results h
  obtain ⟨⟨a, b⟩, -, h⟩ := bind_ok h
  dsimp only at h
  split at h
  · cases h
    rw [idsAll_toIota]
    exact List.nil_subset _
  · cases h

end Arithmetic

namespace StockOperator

variable {ω : Type} {args results : List Iota} {w : ω} {effects : List (SideEffect ω)}

theorem plain_keeps {op : StockOperator} {run : Arguments → Except Mishap (List Iota)}
    (keeps : KeepsReferences run) (h : (op.plain run).execute args w = .ok (results, effects)) :
    Iota.idsAll results ⊆ Iota.idsAll args :=
  keeps ⟨args, op.argc⟩ results (Adapter.execute_const_ok h).1

variable [CastingEnv ω]

theorem entityPosition_keeps (w : ω) : KeepsReferences (entityPosition · w) := by
  intro args results h
  obtain ⟨ref, -, h⟩ := bind_ok h
  obtain ⟨state, -, h⟩ := bind_ok h
  cases h
  exact List.nil_subset _

/-- No stock operator makes a reference up. -/
theorem execute_keeps {op : StockOperator}
    (h : op.adapter.execute args w = .ok (results, effects)) :
    Iota.idsAll results ⊆ Iota.idsAll args := by
  cases op with
  | emptyList => exact plain_keeps Lists.emptyList_keeps h
  | singleton => exact plain_keeps Lists.singleton_keeps h
  | append => exact plain_keeps Lists.append_keeps h
  | concat => exact plain_keeps Lists.concat_keeps h
  | index => exact plain_keeps Lists.index_keeps h
  | listSize => exact plain_keeps Lists.size_keeps h
  | reverse => exact plain_keeps Lists.reverse_keeps h
  | add => exact plain_keeps Arithmetic.add_keeps h
  | sub => exact plain_keeps Arithmetic.sub_keeps h
  | mul => exact plain_keeps Arithmetic.mul_keeps h
  | div => exact plain_keeps Arithmetic.div_keeps h
  | entityPos => exact entityPosition_keeps w ⟨args, 1⟩ results (Adapter.execute_const_ok h).1
  | recharge | craftBattery =>
      rw [(Adapter.execute_spell_ok h).1]
      exact List.nil_subset _

end StockOperator

/-- A spell whose target is among some identities. -/
inductive Spell.Within (ids : List EntityId) : Spell World → Prop where
  | recharge {spell : Recharge} : spell.target ∈ ids → Within ids (.recharge spell)
  | craftBattery {spell : CraftBattery} : spell.target ∈ ids → Within ids (.craftBattery spell)

/-- The identities that a step brings in. -/
def Instruction.ids {α : Type} : Instruction α → List EntityId
  | literal iota => iota.ids
  | operator _ => []

/-- The identities that a cast refers to, in its stack or in a literal of its program. -/
def CastingState.references (s : CastingState) (steps : List (Instruction StockOperator)) :
    List EntityId :=
  Iota.idsAll s.stack ++ steps.flatMap Instruction.ids

section

variable {ids : List EntityId} {w : World} {id : EntityId}

theorem Spell.CapturedIn.within {args : List Iota} {spell : Spell World}
    (captured : spell.CapturedIn w args) (known : Iota.idsAll args ⊆ ids) :
    spell.Within ids := by
  have referred {ref : EntityRef} {state : EntityState} (checked : Targeted w args ref state) :
      ref.id ∈ ids :=
    known (Iota.ids_subset_of_mem (List.mem_of_getElem? checked.argument) List.mem_cons_self)
  cases captured with
  | recharge evaluated =>
      obtain ⟨ref, state, holder, checked, target, -⟩ := Recharge.evaluate_some evaluated
      exact .recharge (target ▸ referred checked)
  | craftBattery evaluated =>
      obtain ⟨ref, state, checked, target, -⟩ := CraftBattery.evaluate_some evaluated
      exact .craftBattery (target ▸ referred checked)

theorem Recharge.find?_commit {spell : Recharge} (other : id ≠ spell.target) :
    (spell.commit w).roster.find? id = w.roster.find? id := by
  rcases spell.commit_cases w with idle | ⟨source, holder, slot, same, found⟩
  · rw [idle]
  · rw [commit_eq slot same found, World.find?_exchange, if_neg other]

theorem CraftBattery.find?_commit {spell : CraftBattery} (other : id ≠ spell.target) :
    (spell.commit w).roster.find? id = w.roster.find? id := by
  rcases spell.commit_cases w with idle | ⟨source, bottle, single, slot⟩
  · rw [idle]
  · rw [commit_eq bottle single slot, World.find?_exchange, if_neg other]

namespace Spell

theorem Within.find?_commit {spell : Spell World} (within : spell.Within ids)
    (unknown : id ∉ ids) : (spell.commit w).roster.find? id = w.roster.find? id := by
  cases within with
  | recharge known => exact Recharge.find?_commit fun same => unknown (same ▸ known)
  | craftBattery known => exact CraftBattery.find?_commit fun same => unknown (same ▸ known)

theorem find?_commitAll {spells : List (Spell World)}
    (within : ∀ spell ∈ spells, spell.Within ids) (unknown : id ∉ ids) :
    (spells.foldl (fun w spell => spell.commit w) w).roster.find? id = w.roster.find? id := by
  refine List.foldlRecOn (motive := fun now : World => now.roster.find? id = w.roster.find? id)
    spells _ rfl ?_
  intro now same spell asked
  exact ((within spell asked).find?_commit unknown).trans same

end Spell

end

namespace CastingState

variable {ids : List EntityId} {w : World} {s after : CastingState}

theorem step_keeps {instruction : Instruction StockOperator} {effects : List (SideEffect World)}
    (known : Iota.idsAll s.stack ⊆ ids) (brought : instruction.ids ⊆ ids)
    (taken : s.step (instruction.map StockOperator.toOperator) w = (after, .ok effects)) :
    Iota.idsAll after.stack ⊆ ids ∧
      ∀ spell ∈ SideEffect.spells effects, spell.Within ids := by
  cases instruction with
  | literal iota =>
      obtain ⟨rfl, rfl⟩ := step_literal_ok taken
      refine ⟨?_, fun spell member => nomatch member⟩
      rw [Iota.idsAll_append, Iota.idsAll_singleton]
      exact List.append_subset.mpr ⟨known, brought⟩
  | operator op =>
      obtain ⟨rest, args, results, whole, -, executed, rfl⟩ := step_adapted_ok taken
      rw [whole, Iota.idsAll_append] at known
      obtain ⟨below, popped⟩ := List.append_subset.mp known
      constructor
      · rw [Iota.idsAll_append]
        have kept := StockOperator.execute_keeps executed
        exact List.append_subset.mpr ⟨below, List.Subset.trans kept popped⟩
      · intro spell asked
        exact (StockOperator.execute_captured executed spell asked).within popped

theorem Evaluates.keeps {steps : List (Instruction StockOperator)}
    {effects : List (SideEffect World)}
    (h : Evaluates w s (StockOperator.program steps) after effects)
    (known : s.references steps ⊆ ids) :
    Iota.idsAll after.stack ⊆ ids ∧
      ∀ spell ∈ SideEffect.spells effects, spell.Within ids := by
  induction steps generalizing s effects with
  | nil =>
      cases h
      exact ⟨(List.append_subset.mp known).1, fun spell member => nomatch member⟩
  | cons instruction rest ih =>
      obtain ⟨known, literals⟩ := List.append_subset.mp known
      obtain ⟨brought, later⟩ := List.append_subset.mp literals
      cases h with
      | step taken run =>
          obtain ⟨next, now⟩ := step_keeps known brought taken
          obtain ⟨last, afterwards⟩ := ih run (List.append_subset.mpr ⟨next, later⟩)
          refine ⟨last, fun spell asked => ?_⟩
          rw [SideEffect.spells_append, List.mem_append] at asked
          exact asked.elim (now spell) (afterwards spell)

/-- A cast leaves a stack without new references, and everyone it does not refer to as they are. -/
theorem castBatch_leaves_unreferenced (s : CastingState)
    (steps : List (Instruction StockOperator)) (w : World) :
    let cast := s.castBatch (StockOperator.program steps) w
    Iota.idsAll cast.1.stack ⊆ s.references steps ∧
      ∀ id, id ∉ s.references steps → cast.2.1.roster.find? id = w.roster.find? id := by
  dsimp only
  rcases cast : s.castBatch (StockOperator.program steps) w with ⟨after, w', failure | report⟩
  · obtain ⟨stack, -, rfl⟩ := World.castBatch_error cast
    refine ⟨?_, fun id unknown => rfl⟩
    simp only [stack, references]
    exact List.subset_append_left _ _
  · obtain ⟨effects, paid, accepts⟩ := castBatch_ok cast
    obtain ⟨-, rfl⟩ := pay_ok accepts.payment
    obtain ⟨stack, within⟩ := accepts.run.keeps (List.Subset.refl _)
    refine ⟨stack, fun id unknown => ?_⟩
    rw [accepts.committed]
    exact Spell.find?_commitAll within unknown

end CastingState

end Spellcasting
