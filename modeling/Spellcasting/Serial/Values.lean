import Spellcasting.Hand
import Spellcasting.Entity
import Spellcasting.Item
import Spellcasting.Serial.Rules
import Spellcasting.Spray

/-! # Trees of the plain values

For each type a function to its tree and a reader back. A double that is not finite becomes null and
is not read back.
-/

namespace Spellcasting

namespace Hand

def toTree (h : Hand) : Tree := .text h.name

def ofTree? (rules : Rules) (t : Tree) : Option Hand := rules.name? names t

end Hand

namespace Vec3

def toTree (v : Vec3) : Tree :=
  .object [("x", .ofDouble v.x), ("y", .ofDouble v.y), ("z", .ofDouble v.z)]

def ofTree? (rules : Rules) (t : Tree) : Option Vec3 := do
  let r ← rules.record? 3 t
  return {
    x := ← r.required "x" 0 Tree.float?
    y := ← r.required "y" 1 Tree.float?
    z := ← r.required "z" 2 Tree.float? }

/-- Reads a point given as the array of its three coordinates. -/
def ofPosition? (rules : Rules) : Tree → Option Vec3
  | .array (x :: y :: z :: surplus) => do
    let position : Vec3 := ⟨← x.float?, ← y.float?, ← z.float?⟩
    if rules.allowsSurplus || surplus.isEmpty then return position else none
  | _ => none

end Vec3

namespace EntityId

def toTree (id : EntityId) : Tree := .text id.text

/-- How many bytes an identity has. -/
def byteCount : Nat := 16

/-- Reads an identity from its text, or from the array of its bytes where surplus elements of an
array do no harm. -/
def ofTree? (rules : Rules) : Tree → Option EntityId
  | .text s => ofText? s
  | .array elements =>
    if rules.allowsSurplus && byteCount ≤ elements.length then
      ((elements.take byteCount).mapM Tree.byte?).map ofBytes
    else none
  | _ => none

end EntityId

namespace EntityKind

def toTree (k : EntityKind) : Tree := .text k.name

def ofTree? (rules : Rules) (t : Tree) : Option EntityKind := rules.name? names t

end EntityKind

namespace EntityRef

def toTree (e : EntityRef) : Tree :=
  .object [("id", e.id.toTree), ("kind", e.kind.toTree), ("name", .text e.name)]

def ofTree? (rules : Rules) (t : Tree) : Option EntityRef := do
  let r ← rules.record? 3 t
  return {
    id := ← r.required "id" 0 (EntityId.ofTree? rules)
    kind := ← r.required "kind" 1 (EntityKind.ofTree? rules)
    name := ← r.required "name" 2 Tree.text? }

end EntityRef

namespace ItemId

def toTree (i : ItemId) : Tree := .text i.name

def ofTree? (t : Tree) : Option ItemId := t.text?.map ItemId.mk

end ItemId

namespace ItemStack

/-- The limit is written only where the stack has one of its own. -/
def toTree (s : ItemStack) : Tree :=
  let limit := match s.maxMedia with
    | none => []
    | some m => [("max_media", Tree.ofWord m)]
  .object ([("item", s.item.toTree), ("count", .int s.count.toNat), ("media", .ofWord s.media)] ++
    limit)

def ofTree? (rules : Rules) (t : Tree) : Option ItemStack := do
  let r ← rules.record? 4 t
  return {
    item := ← r.required "item" 0 ItemId.ofTree?
    count := ← r.required "count" 1 Tree.word32?
    media := ← r.defaulted "media" 2 0 Tree.word64?
    maxMedia := ← r.defaulted "max_media" 3 none (Tree.option? Tree.word64?) }

end ItemStack

namespace Spray

def toTree (s : Spray) : Tree :=
  .object [("pos", s.pos.toTree), ("vel", s.vel.toTree), ("fuzziness", .ofDouble s.fuzziness),
    ("spread", .ofDouble s.spread), ("count", .int s.count.toNat)]

def ofTree? (rules : Rules) (t : Tree) : Option Spray := do
  let r ← rules.record? 5 t
  return {
    pos := ← r.required "pos" 0 (Vec3.ofTree? rules)
    vel := ← r.required "vel" 1 (Vec3.ofTree? rules)
    fuzziness := ← r.required "fuzziness" 2 Tree.float?
    spread := ← r.required "spread" 3 Tree.float?
    count := ← r.required "count" 4 Tree.word32? }

end Spray

end Spellcasting
