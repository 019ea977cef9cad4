/-! # Amounts of media

Media is counted in words of 64 bits. The operations here are those that must not wrap: a sum held
at the greatest amount, a difference held at zero, and a quotient rounded up.
-/

namespace Spellcasting

/-- An amount of media. -/
abbrev Media := UInt64

namespace Media

/-- The worth of one pinch of amethyst dust. -/
def dustUnit : Media := 10000

/-- The worth of one amethyst shard. -/
def shardUnit : Media := 5 * dustUnit

/-- The worth of one charged amethyst. -/
def crystalUnit : Media := 10 * dustUnit

/-- The sum of two amounts, held at the greatest amount. -/
def plus (a b : Media) : Media := .ofNat (min (a.toNat + b.toNat) (UInt64.size - 1))

/-- How much of `a` is left after `b` is taken from it, held at zero. -/
def less (a b : Media) : Media := if b ≤ a then a - b else 0

/-- How many portions of `size` it takes to cover `a`. -/
def portions (a size : Media) : Nat := (a.toNat + size.toNat - 1) / size.toNat

theorem toNat_plus (a b : Media) :
    (plus a b).toNat = min (a.toNat + b.toNat) (UInt64.size - 1) := by
  simp only [plus, UInt64.toNat_ofNat']
  exact Nat.mod_eq_of_lt (Nat.lt_of_le_of_lt (Nat.min_le_right _ _) (by decide))

theorem toNat_less (a b : Media) : (less a b).toNat = a.toNat - b.toNat := by
  unfold less
  split
  · next h => exact UInt64.toNat_sub_of_le a b h
  · next h =>
    have : a.toNat < b.toNat := UInt64.not_le.mp h
    simp
    omega

end Media

/-- How much media a transfer asks for. -/
inductive MediaAmount where
  | units (amount : Media)
  /-- As much as can be moved. -/
  | unlimited
  deriving DecidableEq

namespace MediaAmount

/-- What is moved when `available` is the most that can be. -/
def clamp : MediaAmount → Media → Media
  | units amount, available => if amount ≤ available then amount else available
  | unlimited, available => available

theorem clamp_le (a : MediaAmount) (available : Media) : a.clamp available ≤ available := by
  cases a with
  | units amount => simp only [clamp]; split <;> simp_all
  | unlimited => exact UInt64.le_refl _

end MediaAmount

end Spellcasting
