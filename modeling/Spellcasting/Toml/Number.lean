import Spellcasting.Decimal.Reading
import Spellcasting.Text.Hexadecimal
import Spellcasting.Tree

/-! # Numbers, dates and truth values of TOML

Whole numbers have 63 bits and a sign. A number too large for a double is refused if it is positive
and is the negative infinity if it is negative. A date or a time of day is checked against the
calendar and then stands in the tree as an object of one reserved key.
-/

namespace Spellcasting.Toml

/-- Reads a row of digits with single underscores between digits; the underscores are dropped. -/
def readDigits? (isDigit : Char → Bool) (cs : List Char) : Option (List Char × List Char) :=
  match cs with
  | c :: rest => if isDigit c then some (more rest.length [c] rest) else none
  | [] => none
where
  more : Nat → List Char → List Char → List Char × List Char
    | 0, read, cs => (read.reverse, cs)
    | steps + 1, read, cs =>
      match cs with
      | '_' :: c :: rest => if isDigit c then more steps (c :: read) rest else (read.reverse, cs)
      | c :: rest => if isDigit c then more steps (c :: read) rest else (read.reverse, cs)
      | [] => (read.reverse, [])

/-- Reads a sign, if there is one; the answer says whether it is minus. -/
def readSign : List Char → Bool × List Char
  | '-' :: rest => (true, rest)
  | '+' :: rest => (false, rest)
  | cs => (false, cs)

/-- Reads the digits in front of the point: a zero stands alone there. -/
def readWhole? : List Char → Option (List Char × List Char)
  | '0' :: rest => some (['0'], rest)
  | cs => readDigits? Char.isDigit cs

/-- Reads the part behind the point. -/
def readFraction? : List Char → Option (List Char × List Char)
  | '.' :: rest => readDigits? Char.isDigit rest
  | _ => none

/-- Reads an exponent. -/
def readExponent? : List Char → Option (Int × List Char)
  | c :: rest =>
    if c = 'e' ∨ c = 'E' then
      let (negative, rest) := readSign rest
      (readDigits? Char.isDigit rest).map fun (digits, rest) =>
        let size : Int := Decimal.ofDigits digits
        (if negative then -size else size, rest)
    else none
  | [] => none

/-- The double of a sign, digits and an exponent; no positive one is infinite. -/
def finish? (negative : Bool) (digits : List Char) (exponent : Int) (rest : List Char) :
    Option (Tree × List Char) :=
  let x := Decimal.toDouble negative (Decimal.ofDigits digits) exponent
  if x.isFinite || negative then some (.float x, rest) else none

/-- Reads infinity or not-a-number, either with a sign. -/
def readSpecial? (cs : List Char) : Option (Tree × List Char) :=
  let (negative, cs) := readSign cs
  let signed (size : Double) := if negative then -size else size
  match cs with
  | 'i' :: 'n' :: 'f' :: rest => some (.float (signed .infinity), rest)
  | 'n' :: 'a' :: 'n' :: rest => some (.float (signed .nan), rest)
  | _ => none

/-- Reads a number with a fraction, an exponent or both. -/
def readFloat? (cs : List Char) : Option (Tree × List Char) := do
  let (negative, cs) := readSign cs
  let (whole, cs) ← readWhole? cs
  match readFraction? cs with
  | some (fraction, cs) =>
    let (exponent, cs) := (readExponent? cs).getD (0, cs)
    finish? negative (whole ++ fraction) (exponent - fraction.length) cs
  | none =>
    let (exponent, cs) ← readExponent? cs
    finish? negative whole exponent cs

/-- The whole number of a sign and a size, if it fits. -/
def fit? (negative : Bool) (size : Nat) : Option Tree :=
  let value : Int := if negative then -size else size
  if Int64.minValue.toInt ≤ value ∧ value ≤ Int64.maxValue.toInt then some (.int value) else none

/-- Reads the digits of a whole number to a base other than ten. -/
def readBased? (base : Nat) (cs : List Char) : Option (Tree × List Char) := do
  let isDigit (c : Char) := (Hexadecimal.value? c).any (· < base)
  let (digits, rest) ← readDigits? isDigit cs
  let size := digits.foldl (fun n c => base * n + (Hexadecimal.value? c).getD 0) 0
  return (← fit? false size, rest)

/-- Reads a whole number. -/
def readInteger? : List Char → Option (Tree × List Char)
  | '0' :: 'x' :: rest => readBased? 16 rest
  | '0' :: 'o' :: rest => readBased? 8 rest
  | '0' :: 'b' :: rest => readBased? 2 rest
  | cs => do
    let (negative, cs) := readSign cs
    let (digits, rest) ← readWhole? cs
    return (← fit? negative (Decimal.ofDigits digits), rest)

/-- Reads a number of exactly so many digits, within bounds. -/
def readField? (count least greatest : Nat) (cs : List Char) : Option (Nat × List Char) :=
  let digits := cs.take count
  let n := Decimal.ofDigits digits
  if digits.length = count ∧ digits.all Char.isDigit ∧ least ≤ n ∧ n ≤ greatest then
    some (n, cs.drop count)
  else none

/-- Reads one given character. -/
def expect? (c : Char) : List Char → Option (List Char)
  | first :: rest => if first = c then some rest else none
  | [] => none

/-- How many days a month has. -/
def monthLength (year month : Nat) : Nat :=
  if month = 2 then
    if year % 4 = 0 ∧ (year % 100 ≠ 0 ∨ year % 400 = 0) then 29 else 28
  else if month = 4 ∨ month = 6 ∨ month = 9 ∨ month = 11 then 30
  else 31

/-- Skips a date of the calendar. -/
def skipDate? (cs : List Char) : Option (List Char) := do
  let (year, cs) ← readField? 4 0 9999 cs
  let (month, cs) ← readField? 2 1 12 (← expect? '-' cs)
  let (_, cs) ← readField? 2 1 (monthLength year month) (← expect? '-' cs)
  return cs

/-- Skips a time of day; a second may be a leap second. -/
def skipTime? (cs : List Char) : Option (List Char) := do
  let (_, cs) ← readField? 2 0 23 cs
  let (_, cs) ← readField? 2 0 59 (← expect? ':' cs)
  let (_, cs) ← readField? 2 0 60 (← expect? ':' cs)
  match cs with
  | '.' :: c :: rest => return if c.isDigit then rest.dropWhile Char.isDigit else cs
  | _ => return cs

/-- Skips the offset of a time from the standard one. -/
def skipOffset? : List Char → Option (List Char)
  | c :: rest =>
    if c = 'Z' ∨ c = 'z' then some rest
    else if c = '+' ∨ c = '-' then do
      let (_, cs) ← readField? 2 0 23 rest
      let (_, cs) ← readField? 2 0 59 (← expect? ':' cs)
      return cs
    else none
  | [] => none

/-- Skips a date, a date with a time, or a time. -/
def skipMoment? (cs : List Char) : Option (List Char) :=
  match skipDate? cs with
  | none => skipTime? cs
  | some afterDate =>
    match afterDate with
    | c :: rest =>
      if c = 'T' ∨ c = 't' ∨ c = ' ' then
        match skipTime? rest with
        | some afterTime => some ((skipOffset? afterTime).getD afterTime)
        | none => some afterDate
      else some afterDate
    | [] => some []

/-- The only key of the object that stands for a date or a time. -/
def momentKey : String := "$moment"

/-- Reads a date or a time. -/
def readMoment? (cs : List Char) : Option (Tree × List Char) :=
  (skipMoment? cs).map fun rest =>
    (.object [(momentKey, .text (String.ofList (cs.take (cs.length - rest.length))))], rest)

/-- Reads what starts with a digit or a sign. -/
def readNumeric? (cs : List Char) : Option (Tree × List Char) :=
  readMoment? cs <|> readFloat? cs <|> readSpecial? cs <|> readInteger? cs

end Spellcasting.Toml
