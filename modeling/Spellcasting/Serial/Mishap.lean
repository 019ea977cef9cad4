import Spellcasting.Mishap
import Spellcasting.Serial.Iota

/-! # Trees of mishaps

A mishap is a record of its kind, under `kind`, and its fields. As the kind may stand behind the
fields, all of them are held back until it is known.
-/

namespace Spellcasting

namespace Mishap

/-- The fields of a mishap in order. -/
def fields : Mishap → List (String × Tree)
  | notEnoughArgs expected got => [("expected", .ofWord expected), ("got", .ofWord got)]
  | invalidIota index expected got =>
    [("index", .ofWord index), ("expected", .text expected), ("got", got.toTree)]
  | badItem entity item wanted =>
    [("entity", entity.toTree), ("item", item.toTree), ("wanted", .text wanted)]
  | badOffhandItem item hand wanted =>
    [("item", item.toTree), ("hand", hand.toTree), ("wanted", .text wanted)]
  | entityTooFarAway entity => [("entity", entity.toTree)]
  | locationTooFarAway location => [("location", location.toTree)]
  | divideByZero operand1 operand2 =>
    [("operand1", operand1.toTree), ("operand2", operand2.toTree)]
  | notEnoughMedia required available =>
    [("required", .ofWord required), ("available", .ofWord available)]
  | evalTooDeep limit => [("limit", .ofWord limit)]
  | stackOverflow limit => [("limit", .ofWord limit)]
  | invalidPattern name => [("name", .text name)]

def toTree (m : Mishap) : Tree := .object (("kind", .text m.kind.name) :: m.fields)

/-- How many fields a mishap of a kind has. -/
def fieldCount : MishapKind → Nat
  | .notEnoughArgs => 2
  | .invalidIota => 3
  | .badItem => 3
  | .badOffhandItem => 3
  | .entityTooFarAway => 1
  | .locationTooFarAway => 1
  | .divideByZero => 2
  | .notEnoughMedia => 2
  | .evalTooDeep => 1
  | .stackOverflow => 1
  | .invalidPattern => 1

/-- Reads the fields of a mishap of a known kind. -/
def ofFields? (rules : Rules) (r : Record) : MishapKind → Option Mishap
  | .notEnoughArgs => do
    return notEnoughArgs (← r.required "expected" 0 Tree.word64?)
      (← r.required "got" 1 Tree.word64?)
  | .invalidIota => do
    return invalidIota (← r.required "index" 0 Tree.word64?) (← r.required "expected" 1 Tree.text?)
      (← r.required "got" 2 (Iota.ofTree? rules))
  | .badItem => do
    return badItem (← r.required "entity" 0 (EntityRef.ofTree? rules))
      (← r.required "item" 1 (ItemStack.ofTree? rules)) (← r.required "wanted" 2 Tree.text?)
  | .badOffhandItem => do
    return badOffhandItem (← r.required "item" 0 (ItemStack.ofTree? rules))
      (← r.required "hand" 1 (Hand.ofTree? rules)) (← r.required "wanted" 2 Tree.text?)
  | .entityTooFarAway => do
    return entityTooFarAway (← r.required "entity" 0 (EntityRef.ofTree? rules))
  | .locationTooFarAway => do
    return locationTooFarAway (← r.required "location" 0 (Vec3.ofTree? rules))
  | .divideByZero => do
    return divideByZero (← r.required "operand1" 0 (Iota.ofTree? rules))
      (← r.required "operand2" 1 (Iota.ofTree? rules))
  | .notEnoughMedia => do
    return notEnoughMedia (← r.required "required" 0 Tree.word64?)
      (← r.required "available" 1 Tree.word64?)
  | .evalTooDeep => do
    return evalTooDeep (← r.required "limit" 0 Tree.word64?)
  | .stackOverflow => do
    return stackOverflow (← r.required "limit" 0 Tree.word64?)
  | .invalidPattern => do
    return invalidPattern (← r.required "name" 0 Tree.text?)

def ofTree? (rules : Rules) (t : Tree) : Option Mishap := do
  let (kind, r) ← rules.tagged? MishapKind.names t
  if r.fits (fieldCount kind) then ofFields? rules.hold r kind else none

end Mishap

end Spellcasting
