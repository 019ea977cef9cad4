import Spellcasting.Operator.Battery

/-! # Operators

Most operators are adapters: one pops its arguments from the stack and does one of two things. A
constant operator pushes its results and charges a fixed cost. A spell operator pushes nothing and
answers a spell to be committed later, with its cost and the particles to show, or nothing at all.
Other operators work on the whole stack by themselves. Effects are only asked for here; they are
carried out once the whole cast has been accepted.
-/

namespace Spellcasting

/-- An effect that waits to be committed. -/
inductive Spell (ω : Type) where
  | recharge (spell : Recharge)
  | craftBattery (spell : CraftBattery)
  /-- Any other change of the world. -/
  | custom (change : ω → ω)

/-- Carries out a spell. -/
def Spell.commit {ω : Type} [CastingEnv ω] : Spell ω → ω → ω
  | recharge spell, w => spell.commit w
  | craftBattery spell, w => spell.commit w
  | custom change, w => change w

/-- What a spell operator answers when there is something to do. -/
structure SpellCast (ω : Type) where
  spell : Spell ω
  cost : Media
  particles : List Spray

/-- What an operator asks for, to be done once the cast is accepted. -/
inductive SideEffect (ω : Type) where
  | consumeMedia (amount : Media)
  | attemptSpell (spell : Spell ω) (castSound : Bool)
  | particles (spray : Spray)

/-- An operator that pushes results at a fixed cost. -/
structure ConstOperator (ω : Type) where
  argc : Nat
  cost : Media
  execute : List Iota → ω → Except Mishap (List Iota)

/-- An operator that answers a spell. -/
structure SpellOperator (ω : Type) where
  argc : Nat
  castSound : Bool
  execute : List Iota → ω → Except Mishap (Option (SpellCast ω))

/-- An operator of either sort, which has its arguments popped for it. -/
inductive Adapter (ω : Type) where
  | const (operator : ConstOperator ω)
  | spell (operator : SpellOperator ω)

/-- An operator of a program. -/
inductive Operator (ω : Type) where
  | adapted (adapter : Adapter ω)
  /-- An operator that works on the stack by itself. It answers the stack afterwards, whatever that
  is also after a mishap. -/
  | direct (run : List Iota → ω → List Iota × Except Mishap (List (SideEffect ω)))

/-- A stack, bottom-most first, split below its top `argc` iotas. -/
def popArgs (stack : List Iota) (argc : Nat) : Except Mishap (List Iota × List Iota) :=
  if stack.length < argc then .error (.tooFew argc stack.length)
  else .ok (stack.splitAt (stack.length - argc))

/-- The request to pay an amount; nothing costs nothing. -/
def SideEffect.charge {ω : Type} (amount : Media) : List (SideEffect ω) :=
  if amount > 0 then [.consumeMedia amount] else []

/-- The effects of a spell, its payment first and its particles last. -/
def SpellCast.effects {ω : Type} (cast : SpellCast ω) (castSound : Bool) : List (SideEffect ω) :=
  SideEffect.charge cast.cost ++ .attemptSpell cast.spell castSound ::
    cast.particles.map .particles

namespace Adapter

variable {ω : Type}

def argc : Adapter ω → Nat
  | const operator => operator.argc
  | spell operator => operator.argc

/-- What an adapter makes of its arguments: the iotas it pushes and the effects it asks for. -/
def execute : Adapter ω → List Iota → ω → Except Mishap (List Iota × List (SideEffect ω))
  | const operator, args, w =>
    match operator.execute args w with
    | .error m => .error m
    | .ok results => .ok (results, SideEffect.charge operator.cost)
  | spell operator, args, w =>
    match operator.execute args w with
    | .error m => .error m
    | .ok none => .ok ([], [])
    | .ok (some cast) => .ok ([], cast.effects operator.castSound)

/-- Applies an adapter to a stack. The popped arguments are gone also after a mishap, unless there
were too few to pop. -/
def operate (a : Adapter ω) (stack : List Iota) (w : ω) :
    List Iota × Except Mishap (List (SideEffect ω)) :=
  match popArgs stack a.argc with
  | .error m => (stack, .error m)
  | .ok (rest, args) =>
    match a.execute args w with
    | .error m => (rest, .error m)
    | .ok (results, effects) => (rest ++ results, .ok effects)

end Adapter

namespace Operator

variable {ω : Type}

abbrev const (operator : ConstOperator ω) : Operator ω := adapted (.const operator)

abbrev spell (operator : SpellOperator ω) : Operator ω := adapted (.spell operator)

/-- Applies an operator to a stack. The first answer is the stack afterwards, also where the second
is a mishap. -/
def operate : Operator ω → List Iota → ω → List Iota × Except Mishap (List (SideEffect ω))
  | adapted a, stack, w => a.operate stack w
  | direct run, stack, w => run stack w

end Operator

end Spellcasting
