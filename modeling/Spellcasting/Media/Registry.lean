import Spellcasting.Media.Holder

/-! # The media registry

Which items hold media is data: a registry maps item names to capabilities, and a later registration
of an item hides the earlier ones.
-/

namespace Spellcasting

/-- The capabilities of items, latest registration first. -/
structure MediaRegistry where
  entries : List (ItemId × MediaCapability)
  deriving DecidableEq

namespace MediaRegistry

def empty : MediaRegistry := ⟨[]⟩

/-- Gives an item a capability, in place of the one it had. -/
def register (r : MediaRegistry) (item : ItemId) (capability : MediaCapability) : MediaRegistry :=
  ⟨(item, capability) :: r.entries⟩

/-- The registry of the stock items: three sizes of amethyst and the battery. -/
def stock : MediaRegistry :=
  empty
    |>.register .amethystDust (.dust Media.dustUnit)
    |>.register .amethystShard (.dust Media.shardUnit)
    |>.register .chargedAmethyst (.dust Media.crystalUnit)
    |>.register .battery (.battery (64 * Media.crystalUnit) true)

/-- The capability registered for an item. -/
def capability? (r : MediaRegistry) (item : ItemId) : Option MediaCapability :=
  r.entries.lookup item

@[simp] theorem capability?_register (r : MediaRegistry) (item other : ItemId)
    (c : MediaCapability) :
    (r.register item c).capability? other =
      if other = item then some c else r.capability? other := by
  by_cases h : other = item
  · simp [register, capability?, h]
  · have : (other == item) = false := by simp [h]
    simp [register, capability?, List.lookup_cons, this, h]

/-- The stack seen through the capability of its item; nothing is no holder. -/
def findHolder (r : MediaRegistry) (stack : ItemStack) : Option MediaHolder :=
  if stack.isEmpty then none else (r.capability? stack.item).map (⟨stack, ·⟩)

/-- Draws media from a stack. The first answer is the amount drawn, the second the stack afterwards.
-/
def extract (r : MediaRegistry) (stack : ItemStack) (amount : MediaAmount) (simulate : Bool) :
    Media × ItemStack :=
  match r.findHolder stack with
  | none => (0, stack)
  | some holder =>
    if holder.canProvide then
      let (taken, after) := holder.withdraw amount simulate
      (taken, after.stack)
    else (0, stack)

/-- Whether any media can be drawn from a stack. -/
def isMediaItem (r : MediaRegistry) (stack : ItemStack) : Bool :=
  match r.findHolder stack with
  | none => false
  | some holder => holder.canProvide && (holder.withdraw .unlimited true).1 > 0

end MediaRegistry

end Spellcasting
