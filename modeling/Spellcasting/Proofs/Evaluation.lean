import Spellcasting.Casting.Batch
import Spellcasting.Proofs.Steps
import Spellcasting.World

/-! # Runs of a program

`Evaluates` relates the states around a run that reaches the end of its program, together with all
effects that were asked for on the way. The evaluator of a batch succeeds exactly on such runs and
otherwise stops behind one, at the first step that mishaps. A batch is then described by its run:
what it costs, which spells it commits and in which order.
-/

namespace Spellcasting

variable {ω : Type}

namespace SideEffect

/-- The spells among some effects, in order. -/
def spells (effects : List (SideEffect ω)) : List (Spell ω) :=
  effects.filterMap fun
    | .attemptSpell spell _ => some spell
    | _ => none

@[simp] theorem spells_append (first later : List (SideEffect ω)) :
    spells (first ++ later) = spells first ++ spells later :=
  List.filterMap_append

@[simp] theorem spells_charge (amount : Media) :
    spells (charge amount : List (SideEffect ω)) = [] := by
  unfold charge
  split <;> rfl

theorem spells_particles (sprays : List Spray) :
    spells (sprays.map particles : List (SideEffect ω)) = [] := by
  induction sprays with
  | nil => rfl
  | cons spray rest ih => exact ih

theorem spells_effects (cast : SpellCast ω) (castSound : Bool) :
    spells (cast.effects castSound) = [cast.spell] := by
  have parts : cast.effects castSound =
      charge cast.cost ++ ([attemptSpell cast.spell castSound] ++ cast.particles.map particles) :=
    rfl
  rw [parts, spells_append, spells_append, spells_charge, spells_particles]
  rfl

end SideEffect

namespace Adapter

theorem execute_const_ok {operator : ConstOperator ω} {args results : List Iota} {w : ω}
    {effects : List (SideEffect ω)}
    (h : (const operator).execute args w = .ok (results, effects)) :
    operator.execute args w = .ok results ∧ SideEffect.spells effects = [] := by
  simp only [execute] at h
  split at h
  · cases h
  · next executed =>
      cases h
      exact ⟨executed, SideEffect.spells_charge _⟩

theorem execute_spell_ok {operator : SpellOperator ω} {args results : List Iota} {w : ω}
    {effects : List (SideEffect ω)}
    (h : (spell operator).execute args w = .ok (results, effects)) :
    results = [] ∧ ∀ asked ∈ SideEffect.spells effects,
      ∃ cast, operator.execute args w = .ok (some cast) ∧ asked = cast.spell := by
  simp only [execute] at h
  split at h
  · cases h
  · cases h
    exact ⟨rfl, fun asked member => nomatch member⟩
  · next cast answered =>
      cases h
      refine ⟨rfl, fun asked one => ⟨cast, answered, ?_⟩⟩
      rw [SideEffect.spells_effects] at one
      exact List.mem_singleton.mp one

end Adapter

namespace Pending

theorem absorb_append (p : Pending ω) (first later : List (SideEffect ω)) :
    p.absorb (first ++ later) = (p.absorb first).absorb later :=
  List.foldl_append

theorem absorb_spells (p : Pending ω) (effects : List (SideEffect ω)) :
    (p.absorb effects).spells = p.spells ++ SideEffect.spells effects := by
  induction effects generalizing p with
  | nil => exact (List.append_nil _).symm
  | cons effect rest ih =>
      change ((p.add effect).absorb rest).spells = _
      rw [ih]
      cases effect with
      | consumeMedia | particles => rfl
      | attemptSpell spell sound => exact List.append_assoc _ [spell] _

end Pending

namespace CastingState

/-- A run of a whole program from one state to another, with all effects asked for on the way. -/
inductive Evaluates (w : ω) :
    CastingState → List (Instruction (Operator ω)) → CastingState → List (SideEffect ω) → Prop where
  | done (s) : Evaluates w s [] s []
  | step {s mid after instruction rest asked later} :
      s.step instruction w = (mid, .ok asked) →
      Evaluates w mid rest after later →
      Evaluates w s (instruction :: rest) after (asked ++ later)

/-- A run that a mishap stops: so many steps succeed, and the one after them mishaps. -/
inductive Stops (w : ω) :
    CastingState → List (Instruction (Operator ω)) → Nat → CastingState → Mishap → Prop where
  | here {s after instruction rest mishap} :
      s.step instruction w = (after, .error mishap) →
      Stops w s (instruction :: rest) 0 after mishap
  | later {s mid after instruction rest asked place mishap} :
      s.step instruction w = (mid, .ok asked) →
      Stops w mid rest place after mishap →
      Stops w s (instruction :: rest) (place + 1) after mishap

/-- A program runs to its end or is stopped on the way. -/
theorem evaluates_or_stops (w : ω) (s : CastingState) (program : List (Instruction (Operator ω))) :
    (∃ after effects, Evaluates w s program after effects) ∨
      ∃ place after mishap, Stops w s program place after mishap := by
  induction program generalizing s with
  | nil => exact .inl ⟨s, [], .done s⟩
  | cons instruction rest ih =>
      rcases taken : s.step instruction w with ⟨mid, mishap | asked⟩
      · exact .inr ⟨0, mid, mishap, .here taken⟩
      · rcases ih mid with ⟨after, later, run⟩ | ⟨place, after, mishap, stop⟩
        · exact .inl ⟨after, asked ++ later, .step taken run⟩
        · exact .inr ⟨place + 1, after, mishap, .later taken stop⟩

section

variable {w : ω} {s after : CastingState} {program : List (Instruction (Operator ω))}
  {effects : List (SideEffect ω)} {place : Nat} {mishap : Mishap}

theorem Evaluates.evaluateFrom (run : Evaluates w s program after effects) (index : Nat)
    (pending : Pending ω) :
    s.evaluateFrom w index pending program = (after, .ok (pending.absorb effects)) := by
  induction run generalizing index pending with
  | done => rfl
  | step taken _ ih =>
      simp only [CastingState.evaluateFrom, taken, ih, Pending.absorb_append]

theorem Stops.evaluateFrom (stop : Stops w s program place after mishap) (index : Nat)
    (pending : Pending ω) :
    s.evaluateFrom w index pending program = (after, .error ⟨some (index + place), mishap⟩) := by
  induction stop generalizing index pending with
  | here taken => simp only [CastingState.evaluateFrom, taken, Nat.add_zero]
  | later taken _ ih =>
      simp only [CastingState.evaluateFrom, taken, ih, Nat.add_assoc, Nat.add_comm 1]

theorem evaluateFrom_ok {index : Nat} {pending total : Pending ω}
    (h : s.evaluateFrom w index pending program = (after, .ok total)) :
    ∃ effects, Evaluates w s program after effects ∧ total = pending.absorb effects := by
  rcases evaluates_or_stops w s program with ⟨reached, effects, run⟩ | ⟨place, reached, m, stop⟩
  · rw [run.evaluateFrom] at h
    cases h
    exact ⟨effects, run, rfl⟩
  · rw [stop.evaluateFrom] at h
    cases h

theorem Evaluates.limits (run : Evaluates w s program after effects) :
    after.limits = s.limits := by
  induction run with
  | done => rfl
  | step taken _ ih => exact ih.trans (step_limits taken)

theorem Stops.limits (stop : Stops w s program place after mishap) :
    after.limits = s.limits := by
  induction stop with
  | here taken => exact step_limits taken
  | later taken _ ih => exact ih.trans (step_limits taken)

theorem Stops.exists_step (stop : Stops w s program place after mishap) :
    ∃ mid effects instruction, Evaluates w s (program.take place) mid effects ∧
      program[place]? = some instruction ∧ mid.step instruction w = (after, .error mishap) := by
  induction stop with
  | here taken => exact ⟨_, [], _, .done _, rfl, taken⟩
  | later taken _ ih =>
      obtain ⟨mid, effects, instruction, run, there, stopped⟩ := ih
      exact ⟨mid, _, instruction, .step taken run, there, stopped⟩

variable [CastingEnv ω]

/-- A batch whose program runs to the end is settled by its payment. -/
theorem Evaluates.castBatch (run : Evaluates w s.resetBudget program after effects) :
    s.castBatch program w =
      let pending := Pending.none.absorb effects
      match pay s.limits pending.media w with
      | (.error mishap, asked) => ({ after with stack := s.stack }, asked, .error ⟨none, mishap⟩)
      | (.ok drawn, paid) =>
        (after, (SideEffect.spells effects).foldl (fun w spell => spell.commit w) paid,
          .ok { mediaSpent := pending.media
                mediaDrawn := drawn
                spellsCast := (SideEffect.spells effects).length
                particles := pending.particles
                stack := after.stack }) := by
  have spells : (Pending.none.absorb effects).spells = SideEffect.spells effects :=
    Pending.absorb_spells _ _
  rcases paying : pay s.limits (Pending.none.absorb effects).media w with ⟨mishap | drawn, paid⟩ <;>
    simp only [CastingState.castBatch, evaluateAll, run.evaluateFrom, paying, spells]

theorem Stops.castBatch (stop : Stops w s.resetBudget program place after mishap) :
    s.castBatch program w =
      ({ after with stack := s.stack }, w, .error ⟨some place, mishap⟩) := by
  simp only [CastingState.castBatch, evaluateAll, stop.evaluateFrom, Nat.zero_add]

/-- A batch that is accepted: its program runs to the end, the price of the run is paid, and its
spells are committed in order. -/
structure Accepts (s : CastingState) (program : List (Instruction (Operator ω))) (w : ω)
    (effects : List (SideEffect ω)) (paid : ω)
    (after : CastingState) (w' : ω) (report : CastReport) : Prop where
  run : Evaluates w s.resetBudget program after effects
  payment : pay s.limits (Pending.none.absorb effects).media w = (.ok report.mediaDrawn, paid)
  committed : w' = (SideEffect.spells effects).foldl (fun w spell => spell.commit w) paid
  price : report.mediaSpent = (Pending.none.absorb effects).media
  leaves : report.stack = after.stack

theorem castBatch_ok {w' : ω} {report : CastReport}
    (h : s.castBatch program w = (after, w', .ok report)) :
    ∃ effects paid, s.Accepts program w effects paid after w' report := by
  rcases evaluates_or_stops w s.resetBudget program with
    ⟨reached, effects, run⟩ | ⟨place, reached, m, stop⟩
  · rw [run.castBatch] at h
    dsimp only at h
    split at h
    · cases h
    · next drawn paid payment =>
        cases h
        exact ⟨effects, paid, run, payment, rfl, rfl, rfl⟩
  · rw [stop.castBatch] at h
    cases h

theorem castBatch_stopped {w' : ω} {place : Nat} {mishap : Mishap}
    (h : s.castBatch program w = (after, w', .error ⟨some place, mishap⟩)) :
    ∃ reached, Stops w s.resetBudget program place reached mishap := by
  rcases evaluates_or_stops w s.resetBudget program with
    ⟨reached, effects, run⟩ | ⟨found, reached, m, stop⟩
  · rw [run.castBatch] at h
    dsimp only at h
    split at h <;> cases h
  · rw [stop.castBatch] at h
    cases h
    exact ⟨reached, stop⟩

theorem exists_accepted (s : CastingState) (program : List (Instruction (Operator ω))) (w : ω)
    (accepted : (s.castBatch program w).2.2.isOk = true) :
    ∃ after w' report, s.castBatch program w = (after, w', .ok report) := by
  rcases cast : s.castBatch program w with ⟨after, w', failure | report⟩
  · rw [cast] at accepted
    cases accepted
  · exact ⟨after, w', report, rfl⟩

theorem pay_error {limits : Limits} {price : Media} {asked : ω}
    (h : pay limits price w = (.error mishap, asked)) :
    asked = (CastingEnv.withdraw w price true).2 := by
  unfold pay at h
  split at h
  · dsimp only at h
    split at h
    · cases h
      rfl
    · cases h
  · cases h

/-- A batch that is rejected keeps stack and limits, and of the world it has asked the reserve at
most. -/
theorem castBatch_error {w' : ω} {failure : CastFailure}
    (h : s.castBatch program w = (after, w', .error failure)) :
    after.stack = s.stack ∧ after.limits = s.limits ∧
      (w' = w ∨ ∃ price, w' = (CastingEnv.withdraw w price true).2) := by
  rcases evaluates_or_stops w s.resetBudget program with
    ⟨reached, effects, run⟩ | ⟨place, reached, m, stop⟩
  · rw [run.castBatch] at h
    dsimp only at h
    split at h
    · next refused =>
        cases h
        exact ⟨rfl, run.limits, .inr ⟨_, pay_error refused⟩⟩
    · cases h
  · rw [stop.castBatch] at h
    cases h
    exact ⟨rfl, stop.limits, .inl rfl⟩

end

end CastingState

/-- To ask a reserve what it has changes nothing in the world. -/
theorem World.withdraw_simulated (w : World) (amount : Media) :
    w.withdraw amount true = ((MediaAmount.units amount).clamp w.casterMedia, w) := rfl

theorem World.castBatch_error {s after : CastingState}
    {program : List (Instruction (Operator World))} {w w' : World} {failure : CastFailure}
    (h : s.castBatch program w = (after, w', .error failure)) :
    after.stack = s.stack ∧ after.limits = s.limits ∧ w' = w := by
  obtain ⟨stack, limits, same | ⟨price, asked⟩⟩ := CastingState.castBatch_error h
  · exact ⟨stack, limits, same⟩
  · exact ⟨stack, limits, asked.trans (congrArg Prod.snd (w.withdraw_simulated price))⟩

end Spellcasting
