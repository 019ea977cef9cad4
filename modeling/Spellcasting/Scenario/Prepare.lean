import Spellcasting.Operator.Stock
import Spellcasting.Casting.State
import Spellcasting.Scenario
import Spellcasting.World

/-! # Preparing scenarios

A scenario becomes a live world, the references of its entities by name, and a program whose names
have been looked up. The identities of the entities are given from outside, in the order of the
entities.
-/

namespace Spellcasting

/-- Why a scenario cannot be prepared. -/
inductive ScenarioFault where
  | duplicateEntity (name : String)
  | unknownEntity (index : Nat) (name : String)
  | pattern (index : Nat) (mishap : Mishap)

def ScenarioFault.message : ScenarioFault → String
  | duplicateEntity name => "entity '" ++ name ++ "' is defined twice"
  | unknownEntity index name =>
    "program step " ++ Nat.repr index ++ " refers to unknown entity '" ++ name ++ "'"
  | pattern index mishap => "program step " ++ Nat.repr index ++ ": " ++ mishap.message

/-- A scenario that is ready to run. -/
structure Prepared where
  world : World
  /-- The references of the entities, in the order of the scenario. -/
  named : List (String × EntityRef)
  program : List (Instruction StockOperator)

namespace Scenario

/-- The stock capabilities with those of the scenario in their place. -/
def registry (s : Scenario) : MediaRegistry :=
  s.media.foldl (fun r (item, capability) => r.register item capability) .stock

/-- The world of a scenario before its entities are there. -/
def emptyWorld (s : Scenario) (limits : Limits) : World where
  casterPosition := s.caster.position
  ambitRadius := s.caster.ambit.getD limits.ambitRadius
  castingHand := s.caster.castingHand
  mainHand := s.caster.mainHand.getD .empty
  offHand := s.caster.offHand.getD .empty
  casterMedia := s.caster.media
  roster := .empty
  registry := s.registry

/-- Brings an entity into a world. A stack lying in the world carries the empty stack if nothing
else is said; an entity of another kind carries nothing. -/
def spawn (spec : EntitySpec) (id : EntityId) (w : World) : World × EntityRef :=
  let (w, ref) := match spec.kind with
    | .item => w.spawnItem id spec.name spec.position (spec.item.getD .empty)
    | kind => w.spawn id kind spec.name spec.position
  (if spec.alive then w else w.kill id, ref)

/-- Brings entities into a world, the next of them with the identity of the given number. -/
def spawnAll (ids : Nat → EntityId) (w : World) (named : List (String × EntityRef)) :
    List EntitySpec → Except ScenarioFault (World × List (String × EntityRef))
  | [] => .ok (w, named)
  | spec :: rest =>
    if (named.lookup spec.name).isSome then .error (.duplicateEntity spec.name)
    else
      let (w, ref) := spawn spec (ids named.length) w
      spawnAll ids w (named ++ [(spec.name, ref)]) rest

/-- Looks up the names in a step. -/
def resolveStep (named : List (String × EntityRef)) (index : Nat) :
    ScenarioStep → Except ScenarioFault (Instruction StockOperator)
  | .push iota => .ok (.literal iota)
  | .entity name =>
    match named.lookup name with
    | some ref => .ok (.literal (.entity ref))
    | none => .error (.unknownEntity index name)
  | .op name =>
    match StockOperator.resolve name with
    | .ok op => .ok (.operator op)
    | .error mishap => .error (.pattern index mishap)

/-- Looks up the names in steps, the first of which has the given index. -/
def resolveFrom (named : List (String × EntityRef)) (index : Nat) :
    List ScenarioStep → Except ScenarioFault (List (Instruction StockOperator))
  | [] => .ok []
  | step :: rest =>
    match resolveStep named index step with
    | .error fault => .error fault
    | .ok instruction =>
      match resolveFrom named (index + 1) rest with
      | .error fault => .error fault
      | .ok program => .ok (instruction :: program)

/-- Builds the world and looks up the program. The first fault is reported, those of the entities
before those of the program. -/
def prepare (s : Scenario) (ids : Nat → EntityId) (limits : Limits) :
    Except ScenarioFault Prepared :=
  match spawnAll ids (s.emptyWorld limits) [] s.entities with
  | .error fault => .error fault
  | .ok (world, named) =>
    match resolveFrom named 0 s.program with
    | .error fault => .error fault
    | .ok program => .ok ⟨world, named, program⟩

end Scenario

end Spellcasting
