import Spellcasting.Decimal.Binary64

/-! # The fewest digits that read back

Every real number close enough to a double reads back as that double. Of the decimal numbers among
them, `shortest` picks one with the fewest digits, and of those the one nearest to the double; an
exact tie goes to the even digit.
-/

namespace Spellcasting.Decimal

/-- The decimal number `digits * 10 ^ exponent`. -/
structure Scientific where
  digits : Nat
  exponent : Int
  deriving DecidableEq

/-- A double and the two ends of what reads back as it, as numerators over one denominator. The ends
themselves read back iff `closed`. -/
structure Neighbourhood where
  low : Nat
  value : Nat
  high : Nat
  denominator : Nat
  closed : Bool

/-- The numbers that round to `significand * 2 ^ exponent`. The gap below a power of two is half as
wide as the gap above it, except at the least exponent. -/
def Neighbourhood.ofParts (significand : Nat) (exponent : Int) : Neighbourhood :=
  let scale := pow2 (exponent - 2).toNat
  let below := if significand = Binary64.leastNormal ∧ exponent ≠ -1074 then 1 else 2
  { low := (4 * significand - below) * scale
    value := 4 * significand * scale
    high := (4 * significand + 2) * scale
    denominator := pow2 (2 - exponent).toNat
    closed := significand % 2 = 0 }

/-- Measures the neighbourhood in units of `10 ^ exponent`. -/
def Neighbourhood.inUnits (n : Neighbourhood) (exponent : Int) : Neighbourhood :=
  let factor := pow10 (-exponent).toNat
  { low := n.low * factor
    value := n.value * factor
    high := n.high * factor
    denominator := n.denominator * pow10 exponent.toNat
    closed := n.closed }

/-- Whether the whole number `candidate` reads back. -/
def Neighbourhood.holds (n : Neighbourhood) (candidate : Nat) : Bool :=
  let point := candidate * n.denominator
  if n.closed then n.low ≤ point && point ≤ n.high else n.low < point && point < n.high

/-- The whole number next to the value that reads back, if there is one; of two the nearer. -/
def Neighbourhood.nearest? (n : Neighbourhood) : Option Nat :=
  let below := n.value / n.denominator
  let above := below + 1
  match n.holds below, n.holds above with
  | true, true =>
    let rest := 2 * (n.value % n.denominator)
    if rest < n.denominator ∨ (rest = n.denominator ∧ below % 2 = 0) then some below else some above
  | true, false => some below
  | false, true => some above
  | false, false => none

/-- How many digits stand before the decimal point; nonpositive for a number below a tenth. -/
def Neighbourhood.magnitude (n : Neighbourhood) : Int :=
  if n.denominator ≤ n.value then (Nat.toDigits 10 (n.value / n.denominator)).length
  else
    match (List.range 330).find? fun k => decide (n.denominator ≤ n.value * pow10 (k + 1)) with
    | some k => -k
    | none => -330

/-- Drops the zeros at the end of the digits. -/
def Scientific.trim (fuel : Nat) (s : Scientific) : Scientific :=
  match fuel with
  | 0 => s
  | fuel + 1 =>
    if s.digits ≠ 0 ∧ s.digits % 10 = 0 then trim fuel ⟨s.digits / 10, s.exponent + 1⟩ else s

/-- The shortest decimal that reads back as `significand * 2 ^ exponent`. -/
def shortest (significand : Nat) (exponent : Int) : Scientific :=
  if significand = 0 then ⟨0, 0⟩
  else
    let near := Neighbourhood.ofParts significand exponent
    let magnitude := near.magnitude
    let hit? (places : Nat) : Option Scientific :=
      let unit := magnitude - 1 - places
      (near.inUnits unit).nearest?.map (⟨·, unit⟩)
    match (List.range 17).findSome? hit? with
    | some found => found.trim 17
    | none => ⟨significand, exponent⟩

/-- How the digits of a number are laid out: those whose first digit stands `leastPlain` to
`greatestPlain` places before the point are written out in full, the others with an exponent. -/
structure Layout where
  leastPlain : Int
  greatestPlain : Int

/-- Writes the digits with a point, at least one digit on each side of it. -/
def plain (digits : List Char) (before : Int) : String :=
  let whole := digits.take before.toNat ++ List.replicate (before.toNat - digits.length) '0'
  let fraction := List.replicate (-before).toNat '0' ++ digits.drop before.toNat
  String.ofList (if whole.isEmpty then ['0'] else whole) ++ "." ++
    String.ofList (if fraction.isEmpty then ['0'] else fraction)

/-- Writes the digits with the point after the first and the exponent behind, its sign always shown.
-/
def scientific (digits : List Char) (before : Int) : String :=
  let exponent := before - 1
  let mark := if exponent < 0 then "e-" else "e+"
  let fraction := digits.drop 1
  String.ofList (digits.take 1) ++
    (if fraction.isEmpty then "" else "." ++ String.ofList fraction) ++ mark ++ Nat.repr exponent.natAbs

/-- The text of a finite double in the fewest digits, `none` for the others. -/
def Layout.text? (layout : Layout) (x : Double) : Option String :=
  match Binary64.ofDouble x with
  | .nan => none
  | .infinite _ => none
  | .finite negative significand exponent =>
    let found := shortest significand exponent
    let digits := Nat.toDigits 10 found.digits
    let before := digits.length + found.exponent
    let body :=
      if significand = 0 then "0.0"
      else if layout.leastPlain ≤ before ∧ before ≤ layout.greatestPlain then plain digits before
      else scientific digits before
    some ((if negative then "-" else "") ++ body)

end Spellcasting.Decimal
