import Mathlib.Data.List.Nodup
import Mathlib.Logic.Embedding.Basic
import Spellcasting.Proofs.Mirrors
import Spellcasting.Proofs.Stepwise

/-! # Casts in renamed worlds

A sandbox world may have its entities renamed, as long as no two of them get one identity. Renamed
and real world mirror each other, so a cast of renamed values in the renamed world ends in the
renamed way: the same is paid and reported, but for the references on the stack or in the mishap.
-/

namespace Spellcasting

section

variable (f : EntityId ↪ EntityId)

namespace Roster

/-- A roster with its entities renamed; no two of them get one identity. -/
def rename (r : Roster) : Roster :=
  ⟨r.entries.map (EntityState.rename f), by
    have ids : (r.entries.map (EntityState.rename f)).map (·.ref.id) =
        (r.entries.map (·.ref.id)).map f := by
      simp only [List.map_map]
      rfl
    rw [ids]
    exact r.distinct.map f.injective⟩

theorem find?_rename (r : Roster) (id : EntityId) :
    (r.rename f).find? (f id) = (r.find? id).map (EntityState.rename f) := by
  have same (e : EntityState) : decide ((e.rename f).ref.id = f id) = decide (e.ref.id = id) :=
    decide_eq_decide.mpr f.injective.eq_iff
  simp only [find?, rename, List.find?_map, Function.comp_def, same]

theorem edit_rename (r : Roster) (id : EntityId) (change : Edit) :
    (r.rename f).edit (f id) change = (r.edit id change).rename f := by
  simp only [edit, rename, List.map_map, mk.injEq]
  apply List.map_congr_left
  intro e _
  have same : (e.rename f).ref.id = f id ↔ e.ref.id = id := f.injective.eq_iff
  simp only [Function.comp_apply, same]
  split <;> rfl

theorem insert_rename (r : Roster) (e : EntityState) :
    (r.rename f).insert (e.rename f) = (r.insert e).rename f := by
  have same (other : EntityState) :
      decide ((other.rename f).ref.id ≠ (e.rename f).ref.id) = decide (other.ref.id ≠ e.ref.id) :=
    decide_eq_decide.mpr f.injective.ne_iff
  simp only [insert, erase, rename, List.map_append, List.filter_map, Function.comp_def, same,
    List.map_cons, List.map_nil]

end Roster

namespace World

def rename (w : World) : World := { w with roster := w.roster.rename f }

theorem kill_rename (w : World) (id : EntityId) :
    (w.rename f).kill (f id) = (w.kill id).rename f :=
  congrArg (fun roster => { w with roster }) (w.roster.edit_rename f id _)

theorem entitySlot?_rename (w : World) (id : EntityId) :
    (w.rename f).entitySlot? (f id) = w.entitySlot? id := by
  have found : (w.rename f).roster.find? (f id) = _ := w.roster.find?_rename f id
  unfold entitySlot?
  rw [found]
  cases w.roster.find? id <;> rfl

theorem setEntityItem_rename (w : World) (id : EntityId) (stack : ItemStack) :
    (w.rename f).setEntityItem (f id) stack = (w.setEntityItem id stack).rename f := by
  unfold setEntityItem
  rw [entitySlot?_rename]
  split
  · exact congrArg (fun roster => { w with roster }) (w.roster.edit_rename f id _)
  · rfl

theorem mirrors_rename : CastingEnv.Mirrors f (rename f) where
  casterPosition _ := rfl
  ambitRadius _ := rfl
  castingHand _ := rfl
  registry _ := rfl
  heldItem _ hand := by cases hand <;> rfl
  heldSlot? _ hand := by cases hand <;> rfl
  entity? w id := w.roster.find?_rename f id
  entitySlot? := entitySlot?_rename f
  setHeldItem _ hand _ := by cases hand <;> rfl
  setEntityItem := setEntityItem_rename f
  kill := kill_rename f

end World

end

section

variable (f : EntityId → EntityId)

def CastReport.rename (report : CastReport) : CastReport :=
  { report with stack := report.stack.map (Iota.rename f) }

def CastFailure.rename (failure : CastFailure) : CastFailure :=
  { failure with mishap := failure.mishap.rename f }

/-- How a batch ends, with the references in it renamed. -/
def renameResult : Except CastFailure CastReport → Except CastFailure CastReport
  | .ok report => .ok (report.rename f)
  | .error failure => .error (failure.rename f)

end

namespace SideEffect

variable {ω : Type} {f : EntityId → EntityId}

theorem charges_rename (effects : List (SideEffect ω)) :
    charges (effects.map (rename f)) = charges effects := by
  induction effects with
  | nil => rfl
  | cons effect rest ih =>
      cases effect with
      | consumeMedia amount => exact congrArg (amount :: ·) ih
      | attemptSpell | particles => exact ih

theorem price_rename (effects : List (SideEffect ω)) :
    price (effects.map (rename f)) = price effects := by
  simp only [price, cost, charges_rename]

theorem sprays_rename (effects : List (SideEffect ω)) :
    sprays (effects.map (rename f)) = sprays effects := by
  induction effects with
  | nil => rfl
  | cons effect rest ih =>
      cases effect with
      | particles spray => exact congrArg (spray :: ·) ih
      | attemptSpell | consumeMedia => exact ih

end SideEffect

namespace CastingState

variable {f : EntityId ↪ EntityId}

theorem pay_rename (limits : Limits) (price : Media) (w : World) :
    pay limits price (w.rename f) =
      Prod.map (renameAnswer f id) (World.rename f) (pay limits price w) := by
  rw [(w.rename f).paysBy.pay, w.paysBy.pay]
  change (if limits.requireMedia = true ∧ w.casterMedia < price then _ else _) = _
  split
  · rfl
  · cases limits.requireMedia <;> rfl

/-- A cast of renamed values in the renamed world is the renamed cast. -/
theorem castBatch_rename (s : CastingState) (steps : List (Instruction StockOperator)) (w : World) :
    (s.rename f).castBatch (StockOperator.program (steps.map (Instruction.rename f))) (w.rename f) =
      Prod.map (rename f) (Prod.map (World.rename f) (renameResult f))
        (s.castBatch (StockOperator.program steps) w) := by
  have mirrors := World.mirrors_rename f
  rcases evaluates_or_stops w s.resetBudget (StockOperator.program steps) with
    ⟨after, effects, run⟩ | ⟨place, after, mishap, stop⟩
  · have moved : Evaluates (w.rename f) (s.rename f).resetBudget _ _ _ := run.rename mirrors
    have committed := Spell.commitAll_mirrors run.captured mirrors
    rw [run.castBatch, moved.castBatch]
    simp only [Pending.absorb_none_media, Pending.absorb_particles, SideEffect.price_rename,
      SideEffect.sprays_rename, SideEffect.spells_rename, List.length_map]
    have payment : pay (s.rename f).limits (SideEffect.price effects) (w.rename f) = _ :=
      pay_rename s.limits (SideEffect.price effects) w
    rw [payment]
    rcases pay s.limits (SideEffect.price effects) w with ⟨mishap | drawn, paid⟩
    · rfl
    · simp only [renameAnswer, Prod.map_apply, committed]
      rfl
  · have moved : Stops (w.rename f) (s.rename f).resetBudget _ _ _ _ := stop.rename mirrors
    rw [stop.castBatch, moved.castBatch]
    rfl

end CastingState

end Spellcasting
