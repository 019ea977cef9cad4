import Spellcasting.Media.Registry
import Spellcasting.Mishap

/-! # Casting environments

An environment is what operators may ask of the world, and what spells may do to it. Evaluation is
given an environment to read only; the operations that answer with a new environment are for spells
that are being committed and for the payment.
-/

namespace Spellcasting

/-- What is known of an entity at one point in time. -/
structure EntityState where
  ref : EntityRef
  position : Vec3
  alive : Bool
  /-- The stack that the entity carries. -/
  item : Option ItemStack
  deriving DecidableEq

/-- A held stack, and the hand that holds it. -/
structure HeldItem where
  stack : ItemStack
  hand : Hand
  deriving DecidableEq

/-- A world in which spells can be cast. -/
class CastingEnv (ω : Type) where
  casterPosition : ω → Vec3
  /-- How far from the caster targets may be. -/
  ambitRadius : ω → Double
  /-- The hand that holds the casting focus. -/
  castingHand : ω → Hand
  registry : ω → MediaRegistry
  /-- The stack in a hand, the empty one if nothing is held. -/
  heldItem : ω → Hand → ItemStack
  /-- The stack in a hand as far as it may be edited in place. -/
  heldSlot? : ω → Hand → Option ItemStack
  setHeldItem : ω → Hand → ItemStack → ω
  /-- What is known of an entity, `none` once there is no such entity at all. -/
  entity? : ω → EntityId → Option EntityState
  /-- The stack that an entity carries as far as it may be edited in place. -/
  entitySlot? : ω → EntityId → Option ItemStack
  /-- Writes to the stack that an entity carries, as far as it may be edited in place. -/
  setEntityItem : ω → EntityId → ItemStack → ω
  kill : ω → EntityId → ω
  /-- Draws media from the caster's own reserve. The first answer is the amount drawn. -/
  withdraw : ω → Media → Bool → Media × ω

namespace CastingEnv

variable {ω : Type} [CastingEnv ω]

/-- Whether a point is near enough to the caster. -/
def inRange (w : ω) (pos : Vec3) : Bool := (casterPosition w).distance pos <= ambitRadius w

/-- Whether an entity is there, alive and near enough to the caster. -/
def entityInRange (w : ω) (e : EntityRef) : Bool :=
  match entity? w e.id with
  | none => false
  | some state => state.alive && inRange w state.position

/-- Refuses points out of range. -/
def assertInRange (w : ω) (pos : Vec3) : Except Mishap Unit :=
  if inRange w pos then .ok () else .error (.locationTooFarAway pos)

/-- Refuses entities that are missing, dead or out of range. -/
def assertEntityInRange (w : ω) (e : EntityRef) : Except Mishap Unit :=
  if entityInRange w e then .ok () else .error (.entityTooFarAway e)

/-- What is known of an entity that must be alive and in range. -/
def reachable (w : ω) (e : EntityRef) : Except Mishap EntityState :=
  match assertEntityInRange w e with
  | .error m => .error m
  | .ok () =>
    match entity? w e.id with
    | none => .error (.entityTooFarAway e)
    | some state => .ok state

/-- The held stack to work on: that of the hand without the focus if it is accepted, and otherwise
that of the casting hand, whatever it is, so that a mishap can name it. -/
def heldItemFor (w : ω) (accept : ItemStack → Bool) : HeldItem :=
  let free := (castingHand w).other
  let stack := heldItem w free
  if accept stack then ⟨stack, free⟩ else ⟨heldItem w (castingHand w), castingHand w⟩

end CastingEnv

end Spellcasting
