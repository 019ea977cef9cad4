import Spellcasting.Text.Hexadecimal

/-! # Entity identities

An identity is a number of 128 bits. It is written as thirty-two lower-case hexadecimal digits in
groups of 8, 4, 4, 4 and 12, and read back from that form, from the bare digits, and from the form
in braces or behind `urn:uuid:`, all in either case. It may also be given as its sixteen bytes, the
highest first.
-/

namespace Spellcasting

/-- The identity of an entity. -/
structure EntityId where
  bits : BitVec 128
  deriving DecidableEq

namespace EntityId

/-- The identity of the given number, cut to 128 bits. -/
def ofNat (n : Nat) : EntityId := ⟨.ofNat 128 n⟩

/-- The hyphenated form, as characters. -/
def chars (id : EntityId) : List Char :=
  let digits := Hexadecimal.lowDigits 32 id.bits.toNat
  let group (start count : Nat) := (digits.drop start).take count
  group 0 8 ++ '-' :: group 8 4 ++ '-' :: group 12 4 ++ '-' :: group 16 4 ++ '-' :: group 20 12

/-- The hyphenated form. -/
def text (id : EntityId) : String := String.ofList id.chars

/-- Reads thirty-two digits without anything between them. -/
def ofPlain? (cs : List Char) : Option EntityId :=
  if cs.length = 32 then (Hexadecimal.number? cs).map ofNat else none

/-- Reads the hyphenated form. -/
def ofHyphenated? (cs : List Char) : Option EntityId :=
  let group (start count : Nat) := (cs.drop start).take count
  if cs.length = 36 ∧ cs[8]? = some '-' ∧ cs[13]? = some '-' ∧ cs[18]? = some '-' ∧
    cs[23]? = some '-'
  then ofPlain? (group 0 8 ++ group 9 4 ++ group 14 4 ++ group 19 4 ++ group 24 12)
  else none

/-- What may stand in front of the hyphenated form, in either case. -/
def label : List Char := "urn:uuid:".toList

/-- Reads an identity in any of its written forms. -/
def ofChars? (cs : List Char) : Option EntityId :=
  match cs.length with
  | 32 => ofPlain? cs
  | 36 => ofHyphenated? cs
  | 38 =>
    if cs.head? = some '\x7b' ∧ cs.getLast? = some '\x7d' then ofHyphenated? ((cs.drop 1).take 36)
    else none
  | 45 =>
    if (cs.take 9).map Char.toLower = label then ofHyphenated? (cs.drop 9) else none
  | _ => none

/-- Reads an identity in any of its written forms. -/
def ofText? (s : String) : Option EntityId := ofChars? s.toList

/-- The identity of some bytes, the highest first. -/
def ofBytes (bytes : List UInt8) : EntityId :=
  ofNat (bytes.foldl (fun n byte => (n <<< 8) + byte.toNat) 0)

end EntityId

end Spellcasting
