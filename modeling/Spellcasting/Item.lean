import Spellcasting.Media.Amount

/-! # Stacks of items -/

namespace Spellcasting

/-- A namespaced name of an item. -/
structure ItemId where
  name : String
  deriving DecidableEq

namespace ItemId

def air : ItemId := ⟨"minecraft:air"⟩
def glassBottle : ItemId := ⟨"minecraft:glass_bottle"⟩
def amethystDust : ItemId := ⟨"hexcast:amethyst_dust"⟩
def amethystShard : ItemId := ⟨"minecraft:amethyst_shard"⟩
def chargedAmethyst : ItemId := ⟨"hexcast:charged_amethyst"⟩
def battery : ItemId := ⟨"hexcast:battery"⟩

end ItemId

/-- So many of one item. -/
structure ItemStack where
  item : ItemId
  count : UInt32
  /-- The media stored on the stack itself. -/
  media : Media
  /-- The most media that this very stack stores, where it differs from others of its item. -/
  maxMedia : Option Media
  deriving DecidableEq

namespace ItemStack

/-- A stack without media of its own. -/
def new (item : ItemId) (count : UInt32) : ItemStack := ⟨item, count, 0, none⟩

/-- The stack that stands for nothing. -/
def empty : ItemStack := new .air 0

instance : Inhabited ItemStack := ⟨empty⟩

/-- A stack of air or of no items is nothing. -/
def isEmpty (s : ItemStack) : Bool := s.count = 0 || s.item = .air

/-- Whether the stack holds at least one of the item. -/
def is (s : ItemStack) (item : ItemId) : Bool := !s.isEmpty && s.item = item

def withMedia (s : ItemStack) (media : Media) : ItemStack := { s with media }

def withMaxMedia (s : ItemStack) (maxMedia : Media) : ItemStack :=
  { s with maxMedia := some maxMedia }

/-- Takes items away, stopping at none. -/
def shrink (s : ItemStack) (amount : UInt32) : ItemStack :=
  { s with count := if amount ≤ s.count then s.count - amount else 0 }

def text (s : ItemStack) : String :=
  if s.isEmpty then "nothing" else Nat.repr s.count.toNat ++ "x " ++ s.item.name

end ItemStack

end Spellcasting
