import Spellcasting.Casting.Limits
import Spellcasting.Media.Registry
import Spellcasting.Serial.Rules

/-! # Trees of settings and capabilities -/

namespace Spellcasting

namespace Limits

def toTree (l : Limits) : Tree :=
  .object [("ambit_radius", .ofDouble l.ambitRadius), ("max_op_count", .ofWord l.maxOpCount),
    ("max_stack_depth", .ofWord l.maxStackDepth), ("require_media", .bool l.requireMedia)]

/-- Whatever is not written is as in the standard limits. -/
def ofTree? (rules : Rules) (t : Tree) : Option Limits := do
  let r ← rules.record? 4 t
  return {
    ambitRadius := ← r.defaulted "ambit_radius" 0 standard.ambitRadius Tree.float?
    maxOpCount := ← r.defaulted "max_op_count" 1 standard.maxOpCount Tree.word64?
    maxStackDepth := ← r.defaulted "max_stack_depth" 2 standard.maxStackDepth Tree.word64?
    requireMedia := ← r.defaulted "require_media" 3 standard.requireMedia Tree.bool? }

end Limits

namespace Config

def toTree (c : Config) : Tree := .object [("casting", c.casting.toTree)]

def ofTree? (rules : Rules) (t : Tree) : Option Config := do
  let r ← rules.record? 1 t
  return { casting := ← r.defaulted "casting" 0 .standard (Limits.ofTree? rules) }

end Config

namespace MediaCapability

/-- The kinds of capability. -/
inductive Kind where
  | dust
  | battery
  deriving DecidableEq

/-- The kinds and their names. -/
def Kind.names : List (String × Kind) := [("dust", dust), ("battery", battery)]

/-- Batteries can be recharged unless it is written that they cannot. -/
def ofTree? (rules : Rules) (t : Tree) : Option MediaCapability := do
  let (kind, r) ← rules.tagged? Kind.names t
  match kind with
  | .dust =>
    if r.fits 1 then return dust (← r.required "per_item" 0 Tree.word64?) else none
  | .battery =>
    if r.fits 2 then
      return battery (← r.required "max_media" 0 Tree.word64?)
        (← r.defaulted "rechargeable" 1 true Tree.bool?)
    else none

end MediaCapability

end Spellcasting
