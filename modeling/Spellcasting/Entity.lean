import Spellcasting.Entity.Id

/-! # Entity references

A reference records who an entity is at the moment it is taken: identity, kind and name. Whatever
may change later (position, life, the stack it carries) is asked of the world.
-/

namespace Spellcasting

/-- The coarse kinds of entity, fixed for the life of one. -/
inductive EntityKind where
  | player
  /-- A stack of items lying in the world. -/
  | item
  | living
  | other
  deriving DecidableEq

namespace EntityKind

/-- The kinds and their names. -/
def names : List (String × EntityKind) :=
  [("player", player), ("item", item), ("living", living), ("other", other)]

def name : EntityKind → String
  | player => "player"
  | item => "item"
  | living => "living"
  | other => "other"

end EntityKind

/-- A handle on an entity. -/
structure EntityRef where
  id : EntityId
  kind : EntityKind
  /-- The name shown for the entity when the reference was taken. -/
  name : String
  deriving DecidableEq

namespace EntityRef

/-- Whether the reference claims to be one to a stack of items. -/
def isItem (e : EntityRef) : Bool := e.kind = .item

def text (e : EntityRef) : String := e.name

end EntityRef

end Spellcasting
