import Spellcasting.Scenario.Prepare
import Spellcasting.Serial.Report

/-! # Running scenarios

A prepared scenario is cast once, from the empty stack. The outcome says what the cast did or why it
was rejected, and shows the caster and the named entities afterwards, by name.
-/

namespace Spellcasting

/-- A named entity after the cast. -/
structure EntitySummary where
  name : String
  alive : Bool
  item : Option ItemStack

/-- The caster and the named entities after the cast. -/
structure WorldSummary where
  casterMedia : Media
  mainHand : ItemStack
  offHand : ItemStack
  entities : List EntitySummary

/-- What came of a scenario. -/
inductive Outcome where
  | cast (report : CastReport) (world : WorldSummary)
  | mishap (failure : CastFailure) (world : WorldSummary)

namespace Outcome

def isCast : Outcome → Bool
  | cast .. => true
  | mishap .. => false

end Outcome

namespace Prepared

/-- Puts a name in its place among names in order. -/
def insertByName (entry : String × EntityRef) :
    List (String × EntityRef) → List (String × EntityRef)
  | [] => [entry]
  | first :: rest =>
    if entry.1 < first.1 then entry :: first :: rest else first :: insertByName entry rest

/-- The named entities in the order of their names. -/
def byName (p : Prepared) : List (String × EntityRef) := p.named.foldr insertByName []

/-- What a world shows of itself, with the entities of a prepared scenario. -/
def summarize (p : Prepared) (w : World) : WorldSummary where
  casterMedia := w.casterMedia
  mainHand := w.mainHand
  offHand := w.offHand
  entities := p.byName.map fun (name, ref) => ⟨name, w.isAlive ref.id, w.entityItem? ref.id⟩

/-- Casts the program once. -/
def run (p : Prepared) (limits : Limits) : Outcome :=
  let program := p.program.map (Instruction.map StockOperator.toOperator)
  match (CastingState.new limits []).castBatch program p.world with
  | (_, world, .ok report) => .cast report (p.summarize world)
  | (_, world, .error failure) => .mishap failure (p.summarize world)

end Prepared

/-- The stack is written only where the entity carries one. -/
def EntitySummary.toTree (e : EntitySummary) : Tree :=
  let item := match e.item with
    | none => []
    | some stack => [("item", stack.toTree)]
  .object ([("name", .text e.name), ("alive", .bool e.alive)] ++ item)

def WorldSummary.toTree (w : WorldSummary) : Tree :=
  .object [("caster_media", .ofWord w.casterMedia), ("main_hand", w.mainHand.toTree),
    ("off_hand", w.offHand.toTree), ("entities", .array (w.entities.map EntitySummary.toTree))]

def Outcome.toTree : Outcome → Tree
  | cast report world =>
    .object [("status", .text "cast"), ("report", report.toTree), ("world", world.toTree)]
  | mishap failure world =>
    .object [("status", .text "mishap"), ("failure", failure.toTree), ("world", world.toTree)]

end Spellcasting
