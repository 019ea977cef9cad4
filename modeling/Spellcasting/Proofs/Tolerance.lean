import Spellcasting.Proofs.Doubles
import Spellcasting.Proofs.Sameness

/-! # What equal iotas tolerate

A finite double is nothing away from itself, but a double that is not finite has no difference to
itself at all, and a vector with such a component no distance. So of two equal iotas one tolerates
the other unless there is a double in them, at whatever depth, that is not finite.
-/

namespace Spellcasting

namespace Double

open Float.Model (UnpackedFloat)

variable {x : Double}

theorem sub_self_of_isFinite (finite : x.isFinite = true) : x - x = 0 := by
  change x.toFloat.toModel.unpack.isFinite = true at finite
  change ofFloat (.ofModel (.pack (.sub .binary64 x.toFloat.toModel.unpack
    x.toFloat.toModel.unpack))) = 0
  cases parts : x.toFloat.toModel.unpack with
  | notANumber | infinity =>
      rw [parts] at finite
      cases finite
  | zero sign => cases sign <;> rfl
  | finite sign mantissa exponent positive =>
      let scaled := (UnpackedFloat.decreaseExponent mantissa exponent (min exponent exponent)).1
      change ofFloat (.ofModel (.pack (.normalize .binary64 (sign.apply scaled - sign.apply scaled)
        (min exponent exponent) .positive))) = 0
      rw [Int.sub_self]
      rfl

theorem sub_self_eq_nan (infinite : x.isFinite = false) : x - x = nan := by
  change x.toFloat.toModel.unpack.isFinite = false at infinite
  change ofFloat (.ofModel (.pack (.sub .binary64 x.toFloat.toModel.unpack
    x.toFloat.toModel.unpack))) = nan
  cases parts : x.toFloat.toModel.unpack with
  | notANumber => rfl
  | infinity sign => cases sign <;> rfl
  | zero | finite =>
      rw [parts] at infinite
      cases infinite

theorem nan_add (x : Double) : nan + x = nan := by
  change ofFloat (.ofModel (.pack (.add .binary64 .notANumber x.toFloat.toModel.unpack))) = nan
  cases x.toFloat.toModel.unpack <;> rfl

theorem add_nan (x : Double) : x + nan = nan := by
  change ofFloat (.ofModel (.pack (.add .binary64 x.toFloat.toModel.unpack .notANumber))) = nan
  cases x.toFloat.toModel.unpack <;> rfl

theorem nan_mul_nan : nan * nan = nan := rfl

theorem sqrt_nan : nan.sqrt = nan := rfl

theorem tolerates_self (x : Double) : decide ((x - x).abs < Iota.tolerance) = x.isFinite := by
  cases finite : x.isFinite with
  | true =>
      rw [sub_self_of_isFinite finite]
      rfl
  | false =>
      rw [sub_self_eq_nan finite]
      rfl

end Double

namespace Vec3

def isFinite (v : Vec3) : Bool := v.x.isFinite && v.y.isFinite && v.z.isFinite

theorem sub_self_of_isFinite {v : Vec3} (finite : v.isFinite = true) : v - v = zero := by
  simp only [isFinite, Bool.and_eq_true] at finite
  obtain ⟨⟨x, y⟩, z⟩ := finite
  change (⟨v.x - v.x, v.y - v.y, v.z - v.z⟩ : Vec3) = zero
  rw [Double.sub_self_of_isFinite x, Double.sub_self_of_isFinite y, Double.sub_self_of_isFinite z]
  rfl

open Double in
theorem distance_self_eq_nan {v : Vec3} (infinite : v.isFinite = false) : v.distance v = .nan := by
  change ((v.x - v.x) * (v.x - v.x) + (v.y - v.y) * (v.y - v.y) +
    (v.z - v.z) * (v.z - v.z)).sqrt = .nan
  simp only [isFinite, Bool.and_eq_false_iff] at infinite
  rcases infinite with (x | y) | z
  · rw [sub_self_eq_nan x, nan_mul_nan, nan_add, nan_add, sqrt_nan]
  · rw [sub_self_eq_nan y, nan_mul_nan, add_nan, nan_add, sqrt_nan]
  · rw [sub_self_eq_nan z, nan_mul_nan, add_nan, sqrt_nan]

theorem tolerates_self (v : Vec3) : decide (v.distance v < Iota.tolerance) = v.isFinite := by
  cases finite : v.isFinite with
  | true =>
      rw [distance, sub_self_of_isFinite finite]
      rfl
  | false =>
      rw [distance_self_eq_nan finite]
      rfl

end Vec3

/-- Whether all of some doubles are finite. -/
def allFinite (doubles : List PlacedDouble) : Bool := doubles.all fun d => d.2.isFinite

theorem allFinite_append (first later : List PlacedDouble) :
    allFinite (first ++ later) = (allFinite first && allFinite later) := List.all_append

theorem allFinite_under (key : Tree.Key) (doubles : List PlacedDouble) :
    allFinite (under key doubles) = allFinite doubles := List.all_map

theorem allFinite_alone (d : Double) : allFinite (alone d) = d.isFinite := Bool.and_true _

theorem Vec3.allFinite_doubles (v : Vec3) : allFinite v.doubles = v.isFinite := by
  simp only [doubles, allFinite_append, allFinite_under, allFinite_alone, isFinite]

namespace Iota

mutual

theorem tolerates_self : ∀ i : Iota, i.tolerates i = allFinite i.doubles
  | double d => by
      rw [doubles, allFinite_under, allFinite_alone]
      exact Double.tolerates_self d
  | vec3 v => by
      rw [doubles, allFinite_under, Vec3.allFinite_doubles]
      exact Vec3.tolerates_self v
  | list items => by
      rw [doubles, allFinite_under]
      exact toleratesAll_self 0 items
  | null => rfl
  | bool b => BEq.rfl (a := bool b)
  | entity e => BEq.rfl (a := entity e)
  | item s => BEq.rfl (a := item s)
  | pattern signature => BEq.rfl (a := pattern signature)
  | garbage => rfl

theorem toleratesAll_self (start : Nat) :
    ∀ items : List Iota, toleratesAll items items = allFinite (doublesFrom start items)
  | [] => rfl
  | i :: rest => by
      simp only [toleratesAll, doublesFrom, allFinite_append, allFinite_under, tolerates_self i,
        toleratesAll_self (start + 1) rest]

end

end Iota

/-- Of two equal iotas one tolerates the other if and only if all doubles in them are finite. -/
theorem equal_iotas_tolerate_finite_doubles (a b : Iota) (equal : (a == b) = true) :
    a.tolerates b = true ↔ ∀ d ∈ a.doubles, d.2.isFinite = true := by
  cases eq_of_beq equal
  rw [Iota.tolerates_self, allFinite, List.all_eq_true]

/-- A negative zero and a vector whose length is infinite are tolerated two lists deep, and a double
that is no number is not. -/
theorem long_vectors_are_tolerated :
    let long : Iota := .list [.double (-0.0), .list [.vec3 ⟨1e300, -1e300, 1e300⟩]]
    let odd : Iota := .list [.list [.double (0 / 0)]]
    (long == long) = true ∧ long.tolerates long = true ∧
      (odd == odd) = true ∧ odd.tolerates odd = false := by
  intro long odd
  have equal : (long == long) = true := by decide +kernel
  have same : (odd == odd) = true := by decide +kernel
  have finite : ∀ d ∈ long.doubles, d.2.isFinite = true := by decide +kernel
  have infinite : ¬ ∀ d ∈ odd.doubles, d.2.isFinite = true := by decide +kernel
  refine ⟨equal, (equal_iotas_tolerate_finite_doubles long long equal).mpr finite, same, ?_⟩
  exact Bool.eq_false_iff.mpr
    (mt (equal_iotas_tolerate_finite_doubles odd odd same).mp infinite)

/-- Infinity is equal to itself and does not tolerate itself. -/
theorem infinity_does_not_tolerate_itself :
    ¬ ∀ a b : Iota, (a == b) = true → a.tolerates b = true := by
  intro coarser
  have equal : (Iota.double (1 / 0) == .double (1 / 0)) = true := by decide +kernel
  have strict : (Iota.double (1 / 0)).tolerates (.double (1 / 0)) = false := by decide +kernel
  rw [coarser _ _ equal] at strict
  cases strict

end Spellcasting
