import Spellcasting.World.Roster

/-! # The sandbox world

A small world of its own: one caster with two hands and a reserve of media, and a roster of
entities.
-/

namespace Spellcasting

/-- The state of a sandbox world. -/
structure World where
  casterPosition : Vec3
  ambitRadius : Double
  castingHand : Hand
  mainHand : ItemStack
  offHand : ItemStack
  casterMedia : Media
  roster : Roster
  registry : MediaRegistry
  deriving DecidableEq

namespace World

/-- A caster at the origin with empty hands and no media, alone, with the stock registry. -/
def initial : World where
  casterPosition := .zero
  ambitRadius := 32
  castingHand := .main
  mainHand := .empty
  offHand := .empty
  casterMedia := 0
  roster := .empty
  registry := .stock

/-- The stack in a hand. -/
def held (w : World) : Hand → ItemStack
  | .main => w.mainHand
  | .off => w.offHand

/-- Puts a stack in a hand, in place of what was there. -/
def hold (w : World) (hand : Hand) (stack : ItemStack) : World :=
  match hand with
  | .main => { w with mainHand := stack }
  | .off => { w with offHand := stack }

@[simp] theorem held_hold (w : World) (hand other : Hand) (stack : ItemStack) :
    (w.hold hand stack).held other = if other = hand then stack else w.held other := by
  cases hand <;> cases other <;> rfl

/-- Brings an entity of the given identity into the world, alive and carrying nothing. -/
def spawn (w : World) (id : EntityId) (kind : EntityKind) (name : String) (position : Vec3) :
    World × EntityRef :=
  let ref : EntityRef := ⟨id, kind, name⟩
  ({ w with roster := w.roster.insert ⟨ref, position, true, none⟩ }, ref)

/-- Drops a stack into the world as an entity of the given identity. -/
def spawnItem (w : World) (id : EntityId) (name : String) (position : Vec3) (stack : ItemStack) :
    World × EntityRef :=
  let ref : EntityRef := ⟨id, .item, name⟩
  ({ w with roster := w.roster.insert ⟨ref, position, true, some stack⟩ }, ref)

/-- Removes an entity from the world entirely. -/
def despawn (w : World) (id : EntityId) : World := { w with roster := w.roster.erase id }

/-- Puts an entity somewhere else. -/
def move (w : World) (id : EntityId) (position : Vec3) : World :=
  { w with roster := w.roster.edit id { position := fun _ => position } }

/-- Ends the life of an entity; it stays known to the world. -/
def kill (w : World) (id : EntityId) : World :=
  { w with roster := w.roster.edit id { alive := fun _ => false } }

def isAlive (w : World) (id : EntityId) : Bool :=
  match w.roster.find? id with
  | none => false
  | some e => e.alive

/-- The stack that an entity carries, dead or alive. -/
def entityItem? (w : World) (id : EntityId) : Option ItemStack :=
  (w.roster.find? id).bind (·.item)

/-- The stack that a living entity carries. -/
def entitySlot? (w : World) (id : EntityId) : Option ItemStack :=
  match w.roster.find? id with
  | none => none
  | some e => if e.alive then e.item else none

/-- Writes to the stack that a living entity carries. -/
def setEntityItem (w : World) (id : EntityId) (stack : ItemStack) : World :=
  if (w.entitySlot? id).isSome then
    { w with roster := w.roster.edit id { item := fun _ => some stack } }
  else w

/-- Draws media from the caster's reserve, as much of the amount as there is. -/
def withdraw (w : World) (amount : Media) (simulate : Bool) : Media × World :=
  let taken := (MediaAmount.units amount).clamp w.casterMedia
  if simulate then (taken, w) else (taken, { w with casterMedia := w.casterMedia - taken })

/-- How many entities are alive. -/
def entityCount (w : World) : Nat := w.roster.livingCount

instance : CastingEnv World where
  casterPosition := casterPosition
  ambitRadius := ambitRadius
  castingHand := castingHand
  registry := registry
  heldItem := held
  heldSlot? w hand := if (w.held hand).isEmpty then none else some (w.held hand)
  setHeldItem := hold
  entity? w id := w.roster.find? id
  entitySlot? := entitySlot?
  setEntityItem := setEntityItem
  kill := kill
  withdraw := withdraw

end World

end Spellcasting
