import Mathlib.Algebra.Ring.Nat
import Spellcasting.Entity.Id

/-! # Written identities

An identity is read back from the text that it is written as. Its digits stand for its number, as
each digit puts sixteen times the number before it and its own value after that; taking the hyphens
out of the written form leaves the digits in their order.
-/

namespace Spellcasting

namespace Hexadecimal

theorem value?_digitChar {d : Nat} (small : d < 16) : value? (Nat.digitChar d) = some d := by
  have each : ∀ d < 16, value? (Nat.digitChar d) = some d := by decide
  exact each d small

theorem number?_append_singleton (digits : List Char) (c : Char) :
    number? (digits ++ [c]) = (number? digits).bind fun n => (value? c).map (16 * n + ·) := by
  simp only [number?, List.foldlM_append, List.foldlM_cons, List.foldlM_nil, bind_pure,
    Option.bind_eq_bind]

theorem length_lowDigits (count n : Nat) : (lowDigits count n).length = count := by
  induction count generalizing n with
  | zero => rfl
  | succ count ih => rw [lowDigits, List.length_append, ih, List.length_singleton]

theorem number?_lowDigits (count n : Nat) :
    number? (lowDigits count n) = some (n % 16 ^ count) := by
  induction count generalizing n with
  | zero => rw [pow_zero, Nat.mod_one]; rfl
  | succ count ih =>
      rw [lowDigits, number?_append_singleton, ih, Option.bind_some,
        value?_digitChar (Nat.mod_lt n (by decide)), Option.map_some, pow_succ', Nat.mod_mul,
        Nat.add_comm]

end Hexadecimal

namespace EntityId

theorem ofPlain?_lowDigits (id : EntityId) :
    ofPlain? (Hexadecimal.lowDigits 32 id.bits.toNat) = some id := by
  have whole : id.bits.toNat % 16 ^ 32 = id.bits.toNat :=
    Nat.mod_eq_of_lt (Nat.lt_of_lt_of_le id.bits.isLt (by decide))
  rw [ofPlain?, if_pos (Hexadecimal.length_lowDigits ..), Hexadecimal.number?_lowDigits, whole,
    Option.map_some, ofNat, BitVec.ofNat_toNat, BitVec.setWidth_eq]

/-- The hyphens between groups of digits do not count. -/
theorem ofHyphenated?_groups {a b c d e : List Char} (ha : a.length = 8) (hb : b.length = 4)
    (hc : c.length = 4) (hd : d.length = 4) (he : e.length = 12) :
    ofHyphenated? (a ++ '-' :: b ++ '-' :: c ++ '-' :: d ++ '-' :: e) =
      ofPlain? (a ++ b ++ c ++ d ++ e) := by
  simp [ofHyphenated?, List.drop_append, List.drop_of_length_le, List.take_of_length_le, ha, hb,
    hc, hd, he]

theorem ofText?_text (id : EntityId) : ofText? id.text = some id := by
  have length := Hexadecimal.length_lowDigits 32 id.bits.toNat
  have read := ofPlain?_lowDigits id
  generalize digits_eq : Hexadecimal.lowDigits 32 id.bits.toNat = digits at length read
  have chars_length : id.chars.length = 36 := by simp [chars, digits_eq, length]
  have groups : (digits.drop 0).take 8 ++ (digits.drop 8).take 4 ++ (digits.drop 12).take 4 ++
      (digits.drop 16).take 4 ++ (digits.drop 20).take 12 = digits := by
    rw [List.drop_zero, ← List.take_add, ← List.take_add, ← List.take_add, ← List.take_add]
    exact List.take_of_length_le (Nat.le_of_eq length)
  rw [ofText?, text, String.toList_ofList, ofChars?, chars_length]
  change ofHyphenated? id.chars = some id
  rw [chars, digits_eq, ofHyphenated?_groups, groups, read] <;> simp [length]

end EntityId

end Spellcasting
