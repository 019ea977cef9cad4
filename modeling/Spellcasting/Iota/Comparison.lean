import Spellcasting.Iota
import Std.Data.HashSet.Basic

/-! # Comparing iotas

Two comparisons: `==` is exact and tells doubles apart by their bits at every depth, so that iotas
can be members of sets; `tolerates` overlooks small differences between numbers and between vectors.
What an iota feeds to a hash function is written down as a list of words, beside the comparison.
-/

namespace Spellcasting

namespace Vec3

/-- Equality of the bits of all components. -/
def sameBits (a b : Vec3) : Bool :=
  a.x.bits == b.x.bits && a.y.bits == b.y.bits && a.z.bits == b.z.bits

end Vec3

namespace Iota

mutual

/-- Exact equality: the same kind and the same content, doubles compared by their bits. -/
def beq : Iota → Iota → Bool
  | null, null => true
  | garbage, garbage => true
  | double a, double b => a.bits == b.bits
  | bool a, bool b => a == b
  | vec3 a, vec3 b => a.sameBits b
  | list a, list b => beqAll a b
  | entity a, entity b => a == b
  | item a, item b => a == b
  | pattern a, pattern b => a == b
  | _, _ => false

/-- Exact equality of lists, member by member. -/
def beqAll : List Iota → List Iota → Bool
  | [], [] => true
  | a :: as, b :: bs => beq a b && beqAll as bs
  | _, _ => false

end

instance : BEq Iota := ⟨beq⟩

mutual

/-- Equality up to `tolerance` in numbers, in distances between vectors, and in the members of lists
of one length. -/
def tolerates : Iota → Iota → Bool
  | double a, double b => (a - b).abs < tolerance
  | vec3 a, vec3 b => a.distance b < tolerance
  | list a, list b => toleratesAll a b
  | a, b => beq a b

/-- Tolerant equality of lists, member by member. -/
def toleratesAll : List Iota → List Iota → Bool
  | [], [] => true
  | a :: as, b :: bs => tolerates a b && toleratesAll as bs
  | _, _ => false

end

end Iota

/-- One piece of what is fed to a hash function. -/
inductive HashWord where
  | tag (kind : Nat)
  | word (bits : UInt64)
  | number (n : Nat)
  | text (s : String)
  deriving DecidableEq

namespace HashWord

def hashed : HashWord → UInt64
  | tag kind => mixHash 1 (hash kind)
  | word bits => mixHash 2 bits
  | number n => mixHash 3 (hash n)
  | text s => mixHash 4 (hash s)

end HashWord

namespace EntityRef

def hashFeed (e : EntityRef) : List HashWord :=
  let kindTag := match e.kind with
    | .player => 0
    | .item => 1
    | .living => 2
    | .other => 3
  [.number e.id.bits.toNat, .tag kindTag, .text e.name]

end EntityRef

namespace ItemStack

def hashFeed (s : ItemStack) : List HashWord :=
  let limit := match s.maxMedia with
    | none => [.tag 0]
    | some m => [.tag 1, .word m]
  [.text s.item.name, .number s.count.toNat, .word s.media] ++ limit

end ItemStack

namespace Iota

mutual

/-- What an iota feeds to a hash function: its kind, then its content, doubles by their bits, and
lists by their length and members, as the components of a vector are. -/
def hashFeed : Iota → List HashWord
  | null => [.tag 0]
  | double d => [.tag 1, .word d.bits]
  | bool b => [.tag 2, .tag (if b then 1 else 0)]
  | vec3 v => [.tag 3, .number 3, .word v.x.bits, .word v.y.bits, .word v.z.bits]
  | list items => .tag 4 :: .number items.length :: hashFeedAll items
  | entity e => .tag 5 :: e.hashFeed
  | item s => .tag 6 :: s.hashFeed
  | pattern signature => [.tag 7, .text signature]
  | garbage => [.tag 8]

/-- What the members of a list feed to a hash function, one after the other. -/
def hashFeedAll : List Iota → List HashWord
  | [] => []
  | i :: rest => hashFeed i ++ hashFeedAll rest

end

instance : Hashable Iota := ⟨fun i => i.hashFeed.foldl (fun h w => mixHash h w.hashed) 7⟩

/-- The set of some iotas, equal ones counted once. -/
def toSet (iotas : List Iota) : Std.HashSet Iota := Std.HashSet.ofList iotas

end Iota

end Spellcasting
