import Spellcasting.Scenario
import Spellcasting.Serial.Iota
import Spellcasting.Serial.Settings

/-! # Reading scenarios from trees

Nearly everything may be left out. Fields that are not known are refused at the top, in the caster
and in an entity, and ignored elsewhere.
-/

namespace Spellcasting

def CasterSpec.fields : List String :=
  ["position", "media", "casting_hand", "ambit", "main_hand", "off_hand"]

def CasterSpec.ofTree? (rules : Rules) (t : Tree) : Option CasterSpec := do
  let r ← rules.record? 6 t
  let stack? := Tree.option? (ItemStack.ofTree? rules)
  if r.isOnly fields then
    return {
      position := ← r.defaulted "position" 0 plain.position (Vec3.ofPosition? rules)
      media := ← r.defaulted "media" 1 plain.media Tree.word64?
      castingHand := ← r.defaulted "casting_hand" 2 plain.castingHand (Hand.ofTree? rules)
      ambit := ← r.defaulted "ambit" 3 plain.ambit (Tree.option? Tree.float?)
      mainHand := ← r.defaulted "main_hand" 4 plain.mainHand stack?
      offHand := ← r.defaulted "off_hand" 5 plain.offHand stack? }
  else none

def EntitySpec.fields : List String := ["name", "kind", "position", "item", "alive"]

def EntitySpec.ofTree? (rules : Rules) (t : Tree) : Option EntitySpec := do
  let r ← rules.record? 5 t
  if r.isOnly fields then
    return {
      name := ← r.required "name" 0 Tree.text?
      kind := ← r.defaulted "kind" 1 .item (EntityKind.ofTree? rules)
      position := ← r.defaulted "position" 2 .zero (Vec3.ofPosition? rules)
      item := ← r.defaulted "item" 3 none (Tree.option? (ItemStack.ofTree? rules))
      alive := ← r.defaulted "alive" 4 true Tree.bool? }
  else none

/-- A step is an object whose only key says what the step does. -/
def ScenarioStep.ofTree? (rules : Rules) : Tree → Option ScenarioStep
  | .object [("push", t)] => (Iota.ofTree? rules t).map push
  | .object [("entity", t)] => t.text?.map entity
  | .object [("op", t)] => t.text?.map op
  | _ => none

def Scenario.fields : List String := ["caster", "media", "entities", "program"]

/-- Reads the capabilities of items from an object with the items for keys. -/
def Scenario.mediaOfTree? (rules : Rules) (t : Tree) : Option (List (ItemId × MediaCapability)) :=
  t.object?.bind fun members =>
    members.mapM fun (item, t) => (MediaCapability.ofTree? rules t).map (⟨item⟩, ·)

def Scenario.ofTree? (rules : Rules) (t : Tree) : Option Scenario := do
  let r ← rules.record? 4 t
  let all? {α : Type} (read : Rules → Tree → Option α) (t : Tree) : Option (List α) :=
    t.array?.bind fun elements => elements.mapM (read rules)
  if r.isOnly fields then
    return {
      caster := ← r.defaulted "caster" 0 .plain (CasterSpec.ofTree? rules)
      media := ← r.defaulted "media" 1 [] (mediaOfTree? rules)
      entities := ← r.defaulted "entities" 2 [] (all? EntitySpec.ofTree?)
      program := ← r.defaulted "program" 3 [] (all? ScenarioStep.ofTree?) }
  else none

end Spellcasting
