import Mathlib.Algebra.Ring.Nat
import Spellcasting.Proofs.Commits
import Spellcasting.Proofs.Evaluation
import Spellcasting.World.HalfPaying

/-! # A batch and the single calls it stands for

A program may also be run by single calls: its literals are pushed, its operators evaluated, and
what they ask for is kept. `stepwise` is that run. A batch is exactly the run against the world as
it is, then one payment of the price of all effects, then their spells in order; it mishaps where
the single calls do.
-/

namespace Spellcasting

variable {ω : Type}

namespace SideEffect

/-- The amounts to pay among some effects, in order. -/
def charges (effects : List (SideEffect ω)) : List Media :=
  effects.filterMap fun
    | .consumeMedia amount => some amount
    | _ => none

/-- The sprays among some effects, in order. -/
def sprays (effects : List (SideEffect ω)) : List Spray :=
  effects.filterMap fun
    | .particles spray => some spray
    | _ => none

/-- What some effects cost together, however much that is. -/
def cost (effects : List (SideEffect ω)) : Nat := ((charges effects).map UInt64.toNat).sum

/-- What is asked for some effects: their cost, held at the greatest amount. -/
def price (effects : List (SideEffect ω)) : Media := .ofNat (min (cost effects) (UInt64.size - 1))

theorem toNat_price (effects : List (SideEffect ω)) :
    (price effects).toNat = min (cost effects) (UInt64.size - 1) := by
  simp only [price, UInt64.toNat_ofNat']
  exact Nat.mod_eq_of_lt (Nat.lt_of_le_of_lt (Nat.min_le_right _ _) (by decide))

theorem cost_consumeMedia (amount : Media) (rest : List (SideEffect ω)) :
    cost (.consumeMedia amount :: rest) = amount.toNat + cost rest := rfl

end SideEffect

namespace Pending

theorem absorb_particles (p : Pending ω) (effects : List (SideEffect ω)) :
    (p.absorb effects).particles = p.particles ++ SideEffect.sprays effects := by
  induction effects generalizing p with
  | nil => exact (List.append_nil _).symm
  | cons effect rest ih =>
      change ((p.add effect).absorb rest).particles = _
      rw [ih]
      cases effect with
      | consumeMedia | attemptSpell => rfl
      | particles spray => exact List.append_assoc _ [spray] _

theorem absorb_media (p : Pending ω) (effects : List (SideEffect ω)) :
    (p.absorb effects).media.toNat =
      min (p.media.toNat + SideEffect.cost effects) (UInt64.size - 1) := by
  induction effects generalizing p with
  | nil =>
      have fits := p.media.toNat_lt_size
      change p.media.toNat = min (p.media.toNat + 0) _
      omega
  | cons effect rest ih =>
      change ((p.add effect).absorb rest).media.toNat = _
      rw [ih]
      cases effect with
      | attemptSpell | particles => rfl
      | consumeMedia amount =>
          rw [SideEffect.cost_consumeMedia]
          -- a sum that has reached the greatest amount stays there, so one `min` is enough
          simp only [add, Media.toNat_plus]
          omega

theorem absorb_none_media (effects : List (SideEffect ω)) :
    (none.absorb effects).media = SideEffect.price effects := by
  apply UInt64.toNat_inj.mp
  rw [absorb_media, SideEffect.toNat_price]
  simp only [none, UInt64.toNat_zero, Nat.zero_add]

end Pending

namespace CastingState

/-- How a run ends whose first step asked for some effects, told by how its other steps end. -/
def prepend (asked : List (SideEffect ω)) :
    Except (Nat × Mishap) (List (SideEffect ω)) → Except (Nat × Mishap) (List (SideEffect ω))
  | .error (place, mishap) => .error (place + 1, mishap)
  | .ok later => .ok (asked ++ later)

/-- Runs a program by single calls against a world. All effects are kept; the first mishap ends the
run and is answered with its place in the program. -/
def stepwise (s : CastingState) (w : ω) :
    List (Instruction (Operator ω)) →
      CastingState × Except (Nat × Mishap) (List (SideEffect ω))
  | [] => (s, .ok [])
  | .literal iota :: rest =>
    match s.push iota with
    | (after, .error mishap) => (after, .error (0, mishap))
    | (after, .ok ()) => ((after.stepwise w rest).1, prepend [] (after.stepwise w rest).2)
  | .operator op :: rest =>
    match s.evaluate op w with
    | (after, .error mishap) => (after, .error (0, mishap))
    | (after, .ok asked) => ((after.stepwise w rest).1, prepend asked (after.stepwise w rest).2)

theorem stepwise_cons_error {s after : CastingState} {w : ω}
    {instruction : Instruction (Operator ω)} {mishap : Mishap}
    (taken : s.step instruction w = (after, .error mishap)) (rest) :
    s.stepwise w (instruction :: rest) = (after, .error (0, mishap)) := by
  cases instruction with
  | literal iota =>
      simp only [step] at taken
      split at taken
      · next pushed =>
          cases taken
          simp only [stepwise, pushed]
      · cases taken
  | operator op =>
      simp only [step] at taken
      simp only [stepwise, taken]

theorem stepwise_cons_ok {s after : CastingState} {w : ω}
    {instruction : Instruction (Operator ω)} {asked : List (SideEffect ω)}
    (taken : s.step instruction w = (after, .ok asked)) (rest) :
    s.stepwise w (instruction :: rest) =
      ((after.stepwise w rest).1, prepend asked (after.stepwise w rest).2) := by
  cases instruction with
  | literal iota =>
      simp only [step] at taken
      split at taken
      · cases taken
      · next pushed =>
          cases taken
          simp only [stepwise, pushed]
  | operator op =>
      simp only [step] at taken
      simp only [stepwise, taken]

/-- The evaluator of a batch takes the same steps, gathers the effects of all of them, and counts
the steps before a mishap from the index it started at. -/
theorem evaluateFrom_stepwise (s : CastingState) (w : ω) (index : Nat) (pending : Pending ω)
    (program : List (Instruction (Operator ω))) :
    s.evaluateFrom w index pending program =
      match s.stepwise w program with
      | (after, .error (place, mishap)) => (after, .error ⟨some (index + place), mishap⟩)
      | (after, .ok effects) => (after, .ok (pending.absorb effects)) := by
  induction program generalizing s index pending with
  | nil => rfl
  | cons instruction rest ih =>
      rcases taken : s.step instruction w with ⟨mid, mishap | asked⟩
      · rw [stepwise_cons_error taken]
        simp only [evaluateFrom, taken, Nat.add_zero]
      · rw [stepwise_cons_ok taken]
        simp only [evaluateFrom, taken, ih]
        rcases mid.stepwise w rest with ⟨after, ⟨place, mishap⟩ | later⟩
        · simp only [prepend, Nat.add_assoc, Nat.add_comm 1]
        · simp only [prepend, Pending.absorb_append]

theorem Evaluates.stepwise {w : ω} {s after : CastingState} {program effects}
    (h : Evaluates w s program after effects) : s.stepwise w program = (after, .ok effects) := by
  induction h with
  | done => rfl
  | step taken _ ih => rw [stepwise_cons_ok taken, ih]; rfl

/-- The batch that single calls come to, for a caster who has some reserve and from whom `draw`
takes a price. -/
def batchOfSteps (s : CastingState) (program : List (Instruction (Operator ω))) [CastingEnv ω]
    (w : ω) (reserve : Media) (draw : Media → Media × ω) :
    CastingState × ω × Except CastFailure CastReport :=
  match s.resetBudget.stepwise w program with
  | (after, .error (place, mishap)) =>
    ({ after with stack := s.stack }, w, .error ⟨some place, mishap⟩)
  | (after, .ok effects) =>
    let price := SideEffect.price effects
    if s.limits.requireMedia ∧ reserve < price then
      ({ after with stack := s.stack }, w, .error ⟨none, .notEnoughMedia price reserve⟩)
    else
      let (drawn, paid) := if s.limits.requireMedia then draw price else (0, w)
      (after, (SideEffect.spells effects).foldl (fun w spell => spell.commit w) paid,
        .ok { mediaSpent := price
              mediaDrawn := drawn
              spellsCast := (SideEffect.spells effects).length
              particles := SideEffect.sprays effects
              stack := after.stack })

/-- How a world pays: what it promises for a price is what there is of it in the reserve, without
any change to the world, and what it then gives is told by `draw`. -/
structure PaysBy [CastingEnv ω] (w : ω) (reserve : Media) (draw : Media → Media × ω) : Prop where
  promised : ∀ price,
    CastingEnv.withdraw w price true = ((MediaAmount.units price).clamp reserve, w)
  given : ∀ price, price ≤ reserve → CastingEnv.withdraw w price false = draw price
  nothing : draw 0 = (0, w)

section

variable [CastingEnv ω] {w : ω} {reserve : Media} {draw : Media → Media × ω}

theorem PaysBy.pay (pays : PaysBy w reserve draw) (limits : Limits) (price : Media) :
    CastingState.pay limits price w =
      if limits.requireMedia ∧ reserve < price then (.error (.notEnoughMedia price reserve), w)
      else
        let (drawn, paid) := if limits.requireMedia then draw price else (0, w)
        (.ok drawn, paid) := by
  have promised := pays.promised price
  unfold CastingState.pay
  cases limits.requireMedia with
  | false => rfl
  | true =>
      -- nothing is withdrawn for a free batch, so what a world does with no price has to be known
      by_cases free : price = 0
      · subst free
        have least : ¬ reserve < 0 := UInt64.not_lt.mpr (UInt64.le_iff_toNat_le.mpr (Nat.zero_le _))
        simp only [least, pays.nothing]
        rfl
      · have priced : price > 0 := UInt64.pos_iff_ne_zero.mpr free
        simp only [priced, decide_true, Bool.and_true, if_true, promised, true_and]
        by_cases short : reserve < price
        · have clamped : (MediaAmount.units price).clamp reserve = reserve :=
            if_neg (UInt64.not_le.mpr short)
          simp only [clamped, short, if_true]
        · have enough : price ≤ reserve := UInt64.not_lt.mp short
          have clamped : (MediaAmount.units price).clamp reserve = price := if_pos enough
          simp only [clamped, short, if_false, UInt64.lt_irrefl, pays.given price enough]

theorem PaysBy.castBatch (pays : PaysBy w reserve draw) (s : CastingState)
    (program : List (Instruction (Operator ω))) :
    s.castBatch program w = s.batchOfSteps program w reserve draw := by
  unfold CastingState.castBatch evaluateAll batchOfSteps
  rw [evaluateFrom_stepwise]
  rcases s.resetBudget.stepwise w program with ⟨after, ⟨place, mishap⟩ | effects⟩
  · simp only [Nat.zero_add]
  · simp only [Pending.absorb_none_media, Pending.absorb_spells, Pending.absorb_particles,
      pays.pay]
    split
    · next refused =>
        split at refused
        · next short =>
            cases refused
            simp only [short, and_self, if_true]
        · cases refused
    · next drawn paid accepted =>
        split at accepted
        · cases accepted
        · next enough =>
            simp only [Prod.mk.injEq, Except.ok.injEq] at accepted
            simp only [enough, if_false, ← accepted.1, ← accepted.2]
            rfl

end

end CastingState

theorem World.paysBy (w : World) :
    CastingState.PaysBy w w.casterMedia
      fun price => (price, { w with casterMedia := w.casterMedia - price }) where
  promised := w.withdraw_simulated
  given price enough := by
    let taken := (MediaAmount.units price).clamp w.casterMedia
    have whole : taken = price := if_pos enough
    change (taken, { w with casterMedia := w.casterMedia - taken }) = _
    rw [whole]
  nothing := by rw [UInt64.sub_zero]

theorem HalfPaying.withdraw_simulated (h : HalfPaying) (amount : Media) :
    CastingEnv.withdraw h amount true =
      ((MediaAmount.units amount).clamp h.world.casterMedia, h) := rfl

theorem HalfPaying.paysBy (h : HalfPaying) :
    CastingState.PaysBy h h.world.casterMedia fun price =>
      (price / 2, ⟨{ h.world with casterMedia := h.world.casterMedia - price / 2 }⟩) where
  promised := h.withdraw_simulated
  given price enough := by
    have half : price / 2 ≤ h.world.casterMedia := by
      apply UInt64.le_iff_toNat_le.mpr
      rw [UInt64.toNat_div]
      exact Nat.le_trans (Nat.div_le_self _ _) (UInt64.le_iff_toNat_le.mp enough)
    let taken := (MediaAmount.units (price / 2)).clamp h.world.casterMedia
    have whole : taken = price / 2 := if_pos half
    change (taken, HalfPaying.mk { h.world with casterMedia := h.world.casterMedia - taken }) = _
    rw [whole]
  nothing := by rw [UInt64.zero_div, UInt64.sub_zero]

/-- A batch is exactly its single calls against the unchanged world, one payment of their price and
their spells in order. In the sandbox the price is drawn in full; a world that gives half of what it
promised is charged half, and the report says so. -/
theorem castBatch_is_stepwise_then_paid_then_committed (s : CastingState) :
    (∀ (program : List (Instruction (Operator World))) (w : World),
      s.castBatch program w = s.batchOfSteps program w w.casterMedia
        fun price => (price, { w with casterMedia := w.casterMedia - price })) ∧
    ∀ (program : List (Instruction (Operator HalfPaying))) (h : HalfPaying),
      s.castBatch program h = s.batchOfSteps program h h.world.casterMedia fun price =>
        (price / 2, ⟨{ h.world with casterMedia := h.world.casterMedia - price / 2 }⟩) :=
  ⟨fun program w => w.paysBy.castBatch s program, fun program h => h.paysBy.castBatch s program⟩

end Spellcasting
