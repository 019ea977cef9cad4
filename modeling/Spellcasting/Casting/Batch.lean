import Spellcasting.Casting.State

/-! # Casting a program

A batch evaluates a whole program against one unchanged world and only then acts: it pays the total
once and commits the spells in order. A batch that is rejected, by a mishap or for want of media,
leaves the stack and the world as they were.
-/

namespace Spellcasting

/-- What a committed batch did. -/
structure CastReport where
  /-- What the batch costs in all. -/
  mediaSpent : Media
  /-- What was drawn from the caster. -/
  mediaDrawn : Media
  spellsCast : Nat
  particles : List Spray
  stack : List Iota

/-- Why a batch was rejected, and at which instruction; a batch that cannot be paid for has none. -/
structure CastFailure where
  index : Option Nat
  mishap : Mishap

/-- What is reported of a rejected batch. -/
def CastFailure.message (f : CastFailure) : String :=
  match f.index with
  | some index => "instruction " ++ Nat.repr index ++ ": " ++ f.mishap.message
  | none => f.mishap.message

/-- The effects that wait for the end of the program. -/
structure Pending (ω : Type) where
  media : Media
  spells : List (Spell ω)
  particles : List Spray

namespace Pending

variable {ω : Type}

def none : Pending ω := ⟨0, [], []⟩

/-- Takes in one more effect. -/
def add (p : Pending ω) : SideEffect ω → Pending ω
  | .consumeMedia amount => { p with media := Media.plus p.media amount }
  | .attemptSpell spell _ => { p with spells := p.spells ++ [spell] }
  | .particles spray => { p with particles := p.particles ++ [spray] }

/-- Takes in the effects of one instruction, in order. -/
def absorb (p : Pending ω) (effects : List (SideEffect ω)) : Pending ω := effects.foldl add p

end Pending

namespace CastingState

variable {ω : Type}

/-- Evaluates a program whose first instruction has the given index, up to its end or its first
mishap. -/
def evaluateFrom (s : CastingState) (w : ω) (index : Nat) (pending : Pending ω) :
    List (Instruction (Operator ω)) → CastingState × Except CastFailure (Pending ω)
  | [] => (s, .ok pending)
  | instruction :: rest =>
    match s.step instruction w with
    | (after, .error mishap) => (after, .error ⟨some index, mishap⟩)
    | (after, .ok effects) => after.evaluateFrom w (index + 1) (pending.absorb effects) rest

/-- Evaluates a whole program. -/
def evaluateAll (s : CastingState) (program : List (Instruction (Operator ω))) (w : ω) :
    CastingState × Except CastFailure (Pending ω) :=
  s.evaluateFrom w 0 .none program

variable [CastingEnv ω]

/-- Draws the price of a batch from the caster, if it has to be paid. The first answer is what was
drawn, the second the world afterwards. The reserve is asked first what it has; of a caster who does
not have it all nothing is drawn. -/
def pay (limits : Limits) (price : Media) (w : ω) : Except Mishap Media × ω :=
  if limits.requireMedia && price > 0 then
    let (available, asked) := CastingEnv.withdraw w price true
    if available < price then (.error (.notEnoughMedia price available), asked)
    else
      let (drawn, paid) := CastingEnv.withdraw asked price false
      (.ok drawn, paid)
  else (.ok 0, w)

/-- Casts a program: evaluates it against the world, pays for it and commits it. -/
def castBatch (s : CastingState) (program : List (Instruction (Operator ω))) (w : ω) :
    CastingState × ω × Except CastFailure CastReport :=
  match s.resetBudget.evaluateAll program w with
  | (after, .error failure) => ({ after with stack := s.stack }, w, .error failure)
  | (after, .ok pending) =>
    match pay s.limits pending.media w with
    | (.error mishap, asked) => ({ after with stack := s.stack }, asked, .error ⟨none, mishap⟩)
    | (.ok drawn, paid) =>
      let report : CastReport :=
        { mediaSpent := pending.media
          mediaDrawn := drawn
          spellsCast := pending.spells.length
          particles := pending.particles
          stack := after.stack }
      (after, pending.spells.foldl (fun w spell => spell.commit w) paid, .ok report)

end CastingState

end Spellcasting
