import Spellcasting.Iota
import Spellcasting.Serial.Values

/-! # Trees of iotas

An iota is a record of its kind under `type` and its content under `value`; null and garbage have no
content.
-/

namespace Spellcasting

namespace Iota

mutual

def toTree : Iota → Tree
  | null => .object [("type", .text "null")]
  | double d => .object [("type", .text "double"), ("value", .ofDouble d)]
  | bool b => .object [("type", .text "bool"), ("value", .bool b)]
  | vec3 v => .object [("type", .text "vec3"), ("value", v.toTree)]
  | list items => .object [("type", .text "list"), ("value", .array (toTrees items))]
  | entity e => .object [("type", .text "entity"), ("value", e.toTree)]
  | item s => .object [("type", .text "item"), ("value", s.toTree)]
  | pattern signature => .object [("type", .text "pattern"), ("value", .text signature)]
  | garbage => .object [("type", .text "garbage")]

/-- The trees of some iotas, in order. -/
def toTrees : List Iota → List Tree
  | [] => []
  | i :: rest => toTree i :: toTrees rest

end

/-- Whether the content stands before the kind. -/
def contentFirst (members : List (String × Tree)) : Bool :=
  (members.find? fun m => m.1 = "type" || m.1 = "value").any (·.1 = "value")

/-- The rules for the content. A table is read in the order in which it is written, so content that
stands before the kind is held back. -/
def contentRules (rules : Rules) : Record → Rules
  | .named members => if rules.format = .toml && contentFirst members then rules.hold else rules
  | .placed _ => rules

/-- Reads the kind. By name it may be the only key of an object, by place it may not. -/
def kind? (rules : Rules) (r : Record) : Option IotaKind :=
  match r with
  | .named _ => r.required "type" 0 (rules.name? IotaKind.names)
  | .placed _ => r.required "type" 0 (rules.tag? IotaKind.names)

/-- Reads the content of a kind that has none. By name it may be left out, by place it may not. -/
def noContent? (r : Record) : Option Unit :=
  match r.field? "value" 1, r with
  | some .null, _ => some ()
  | none, .named _ => some ()
  | _, _ => none

/-- Reads an iota whose tree is nested at most so many levels deep. -/
def ofTreeWithin? : Nat → Rules → Tree → Option Iota
  | 0, _, _ => none
  | levels + 1, rules, t => do
    let r ← rules.record? 2 t
    let kind ← kind? rules r
    let rules := contentRules rules r
    match kind with
    | .null => (noContent? r).map fun _ => null
    | .double => (r.required "value" 1 Tree.float?).map double
    | .bool => (r.required "value" 1 Tree.bool?).map bool
    | .vec3 => (r.required "value" 1 (Vec3.ofTree? rules)).map vec3
    | .list =>
      let items? (t : Tree) := t.array?.bind fun elements =>
        elements.mapM (ofTreeWithin? levels rules)
      (r.required "value" 1 items?).map list
    | .entity => (r.required "value" 1 (EntityRef.ofTree? rules)).map entity
    | .item => (r.required "value" 1 (ItemStack.ofTree? rules)).map item
    | .pattern => (r.required "value" 1 Tree.text?).map pattern
    | .garbage => (noContent? r).map fun _ => garbage

def ofTree? (rules : Rules) (t : Tree) : Option Iota := ofTreeWithin? t.depth rules t

end Iota

end Spellcasting
