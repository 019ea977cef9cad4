import Spellcasting.Operator
import Spellcasting.Operator.Arithmetic
import Spellcasting.Operator.Lists

/-! # The stock operators

The fourteen operators that programs may name, in the order in which they are listed.
-/

namespace Spellcasting

/-- The stock operators. -/
inductive StockOperator where
  | emptyList
  | singleton
  | append
  | concat
  | index
  | listSize
  | reverse
  | add
  | sub
  | mul
  | div
  | entityPos
  | recharge
  | craftBattery
  deriving DecidableEq

namespace StockOperator

/-- All stock operators, in order. -/
def all : List StockOperator :=
  [emptyList, singleton, append, concat, index, listSize, reverse, add, sub, mul, div, entityPos,
    recharge, craftBattery]

/-- The name under which a program finds an operator. -/
def name : StockOperator → String
  | emptyList => "empty_list"
  | singleton => "singleton"
  | append => "append"
  | concat => "concat"
  | index => "index"
  | listSize => "list_size"
  | reverse => "reverse"
  | add => "add"
  | sub => "sub"
  | mul => "mul"
  | div => "div"
  | entityPos => "entity_pos"
  | recharge => "recharge"
  | craftBattery => "craft_battery"

/-- What an operator takes and leaves, for listings. -/
def signature : StockOperator → String
  | emptyList => "→ []"
  | singleton => "x → [x]"
  | append => "[..], x → [.., x]"
  | concat => "[a..], [b..] → [a.., b..]"
  | index => "[..], n → x"
  | listSize => "[..] → n"
  | reverse => "[..] → [..]"
  | add => "a, b → a + b"
  | sub => "a, b → a - b"
  | mul => "a, b → a * b"
  | div => "a, b → a / b"
  | entityPos => "entity → vector"
  | recharge => "item entity →"
  | craftBattery => "item entity →"

/-- The operator of a name. -/
def lookup? (name : String) : Option StockOperator := all.find? (·.name = name)

/-- The operator of a name; a name that none has is a mishap. -/
def resolve (name : String) : Except Mishap StockOperator :=
  match lookup? name with
  | some op => .ok op
  | none => .error (.invalidPattern name)

def argc : StockOperator → Nat
  | emptyList => 0
  | singleton => 1
  | append => 2
  | concat => 2
  | index => 2
  | listSize => 1
  | reverse => 1
  | add => 2
  | sub => 2
  | mul => 2
  | div => 2
  | entityPos => 1
  | recharge => 1
  | craftBattery => 1

variable {ω : Type} [CastingEnv ω]

/-- The position of an entity in range. -/
def entityPosition (args : Arguments) (w : ω) : Except Mishap (List Iota) := do
  let entity ← args.get .entity 0
  let state ← CastingEnv.reachable w entity
  return [.vec3 state.position]

/-- A constant operator that is free and does not look at the world. -/
def plain (op : StockOperator) (run : Arguments → Except Mishap (List Iota)) : Adapter ω :=
  .const ⟨op.argc, 0, fun args _ => run ⟨args, op.argc⟩⟩

/-- What an operator does with its arguments. -/
def adapter : StockOperator → Adapter ω
  | emptyList => emptyList.plain Lists.emptyList
  | singleton => singleton.plain Lists.singleton
  | append => append.plain Lists.append
  | concat => concat.plain Lists.concat
  | index => index.plain Lists.index
  | listSize => listSize.plain Lists.size
  | reverse => reverse.plain Lists.reverse
  | add => add.plain Arithmetic.add
  | sub => sub.plain Arithmetic.sub
  | mul => mul.plain Arithmetic.mul
  | div => div.plain Arithmetic.div
  | entityPos => .const ⟨1, 0, fun args w => entityPosition ⟨args, 1⟩ w⟩
  | recharge => .spell
    { argc := 1
      castSound := true
      execute := fun args w => do
        match ← Recharge.evaluate args w with
        | none => return none
        | some (spell, spray) => return some ⟨.recharge spell, Recharge.cost, [spray]⟩ }
  | craftBattery => .spell
    { argc := 1
      castSound := true
      execute := fun args w => do
        match ← CraftBattery.evaluate args w with
        | none => return none
        | some (spell, spray) => return some ⟨.craftBattery spell, CraftBattery.cost, [spray]⟩ }

/-- The operator itself. -/
def toOperator (op : StockOperator) : Operator ω := .adapted op.adapter

end StockOperator

end Spellcasting
