import Spellcasting.Item

/-! # Media holders

Items that store or provide media do so through a capability: dust is spent whole item by whole
item, a battery keeps media on its stack up to a capacity. A holder is a stack seen through its
capability.

Every transfer may be simulated; it then reports what would be moved and leaves the stack as it is.
-/

namespace Spellcasting

/-- How the items of one kind hold media. Registries know these two ways and no others. -/
inductive MediaCapability where
  /-- Each item is worth `perItem` and is consumed whole. -/
  | dust (perItem : Media)
  /-- Media is stored on the stack, up to the stack's own limit or else `capacity`. -/
  | battery (capacity : Media) (rechargeable : Bool)
  deriving DecidableEq

/-- A stack seen through its capability. -/
structure MediaHolder where
  stack : ItemStack
  capability : MediaCapability
  deriving DecidableEq

namespace MediaHolder

/-- The media held now. -/
def media (h : MediaHolder) : Media :=
  match h.capability with
  | .dust perItem => h.stack.count.toUInt64 * perItem
  | .battery _ _ => h.stack.media

/-- The most media that the holder is meant for. -/
def maxMedia (h : MediaHolder) : Media :=
  match h.capability with
  | .dust _ => h.media
  | .battery capacity _ => h.stack.maxMedia.getD capacity

/-- Whether spells may refill the holder. -/
def canRecharge (h : MediaHolder) : Bool :=
  match h.capability with
  | .dust _ => false
  | .battery _ rechargeable => rechargeable

/-- Whether media may be drawn from the holder. -/
def canProvide (h : MediaHolder) : Bool :=
  match h.capability with
  | .dust _ => true
  | .battery _ _ => true

/-- Whether the media may be bottled into a new battery. -/
def canConstructBattery (h : MediaHolder) : Bool :=
  match h.capability with
  | .dust _ => true
  | .battery _ _ => false

/-- Puts media in. The first answer is the amount accepted, the second the holder afterwards. -/
def insert (h : MediaHolder) (amount : MediaAmount) (simulate : Bool) : Media × MediaHolder :=
  match h.capability with
  | .dust _ => (0, h)
  | .battery _ _ =>
    let accepted := amount.clamp (Media.less h.maxMedia h.stack.media)
    if simulate then (accepted, h)
    else (accepted, { h with stack := { h.stack with media := h.stack.media + accepted } })

/-- Takes media out. The first answer is the amount taken, the second the holder afterwards. Dust
that is used in part is lost. -/
def withdraw (h : MediaHolder) (amount : MediaAmount) (simulate : Bool) : Media × MediaHolder :=
  match h.capability with
  | .dust perItem =>
    if perItem = 0 then (0, h)
    else
      let taken := amount.clamp h.media
      if simulate || taken = 0 then (taken, h)
      else
        let used := UInt32.ofNat (min (Media.portions taken perItem) (UInt32.size - 1))
        (taken, { h with stack := h.stack.shrink used })
  | .battery _ _ =>
    let taken := amount.clamp h.stack.media
    if simulate then (taken, h)
    else (taken, { h with stack := { h.stack with media := h.stack.media - taken } })

/-- How much more the holder would accept now. -/
def freeCapacity (h : MediaHolder) : Media := (h.insert .unlimited true).1

end MediaHolder

end Spellcasting
