import Spellcasting.Casting.Limits
import Spellcasting.Operator

/-! # Stepwise casting

The state of a cast is a stack, the limits it is held to, and how many operators have been evaluated
since the count was last restarted. Single steps push an iota or evaluate an operator; what a step
asks for is answered and not carried out.
-/

namespace Spellcasting

/-- The state between two steps of casting; the stack is given bottom-most first. -/
structure CastingState where
  stack : List Iota
  limits : Limits
  /-- Grows by one with each call and starts again with each batch: a counter of 64 bits would only
  wrap around after 2 ^ 64 calls without a restart. -/
  evaluated : Nat

/-- One step of a program: an iota to push or an operator to evaluate. -/
inductive Instruction (α : Type) where
  | literal (iota : Iota)
  | operator (op : α)

/-- A step with its operator replaced. -/
def Instruction.map {α β : Type} (f : α → β) : Instruction α → Instruction β
  | literal iota => literal iota
  | operator op => operator (f op)

namespace CastingState

def new (limits : Limits) (stack : List Iota) : CastingState := ⟨stack, limits, 0⟩

/-- Refuses a stack that has grown past its limit. -/
def checkDepth (s : CastingState) : Except Mishap Unit :=
  if s.limits.maxStackDepth.toNat < s.stack.length then
    .error (.stackOverflow s.limits.maxStackDepth)
  else .ok ()

/-- Pushes an iota. It stays on the stack also where that makes the stack too tall. -/
def push (s : CastingState) (iota : Iota) : CastingState × Except Mishap Unit :=
  let after := { s with stack := s.stack ++ [iota] }
  (after, after.checkDepth)

/-- Restarts the count of evaluated operators. -/
def resetBudget (s : CastingState) : CastingState := { s with evaluated := 0 }

variable {ω : Type}

/-- Evaluates one operator against a world that it may only read. Every call is counted, a refused
one too. -/
def evaluate (s : CastingState) (op : Operator ω) (w : ω) :
    CastingState × Except Mishap (List (SideEffect ω)) :=
  let counted := { s with evaluated := s.evaluated + 1 }
  if s.limits.maxOpCount.toNat < counted.evaluated then
    (counted, .error (.evalTooDeep s.limits.maxOpCount))
  else
    let (stack, result) := op.operate counted.stack w
    let after := { counted with stack }
    match result with
    | .error m => (after, .error m)
    | .ok effects =>
      match after.checkDepth with
      | .error m => (after, .error m)
      | .ok () => (after, .ok effects)

/-- Takes one step of a program. -/
def step (s : CastingState) (instruction : Instruction (Operator ω)) (w : ω) :
    CastingState × Except Mishap (List (SideEffect ω)) :=
  match instruction with
  | .literal iota =>
    match s.push iota with
    | (after, .error m) => (after, .error m)
    | (after, .ok ()) => (after, .ok [])
  | .operator op => s.evaluate op w

end CastingState

end Spellcasting
