import Spellcasting.Decimal.Reading
import Spellcasting.Text.Hexadecimal
import Spellcasting.Text.Scalar
import Spellcasting.Tree

/-! # Reading JSON

A text is read as exactly one value with nothing but blanks around it. Numbers without fraction and
exponent are whole numbers as far as they fit a word of 64 bits, and doubles otherwise; a number too
large for a double is refused. Arrays and objects may be nested to any depth. Of members with one
key the last counts.
-/

namespace Spellcasting.Json

/-- The blanks between tokens. -/
def isBlank (c : Char) : Bool := c = ' ' || c = '\t' || c = '\n' || c = '\r'

def skipBlanks (cs : List Char) : List Char := cs.dropWhile isBlank

/-- The character that a pair of surrogates stands for. -/
def pair? (high low : Nat) : Option Char :=
  if 0xD800 ≤ high ∧ high < 0xDC00 ∧ 0xDC00 ≤ low ∧ low < 0xE000 then
    Scalar.ofNat? (0x10000 + (high - 0xD800) * 0x400 + (low - 0xDC00))
  else none

/-- The character behind a backslash and a letter. -/
def unescape? (c : Char) : Option Char :=
  if c = '"' ∨ c = '\\' ∨ c = '/' then some c
  else if c = 'b' then some '\x08'
  else if c = 'f' then some '\x0c'
  else if c = 'n' then some '\n'
  else if c = 'r' then some '\r'
  else if c = 't' then some '\t'
  else none

/-- Reads a text up to its closing quote; `read` holds what has been read, last character first. -/
def readText (read : List Char) : List Char → Option (String × List Char)
  | [] => none
  | '"' :: rest => some (String.ofList read.reverse, rest)
  | '\\' :: 'u' :: a :: b :: c :: d :: '\\' :: 'u' :: e :: f :: g :: h :: rest =>
    match Hexadecimal.number? [a, b, c, d] with
    | none => none
    | some unit =>
      match Scalar.ofNat? unit with
      | some ch => readText (ch :: read) ('\\' :: 'u' :: e :: f :: g :: h :: rest)
      | none =>
        match (Hexadecimal.number? [e, f, g, h]).bind (pair? unit) with
        | some ch => readText (ch :: read) rest
        | none => none
  | '\\' :: 'u' :: a :: b :: c :: d :: rest =>
    match (Hexadecimal.number? [a, b, c, d]).bind Scalar.ofNat? with
    | some ch => readText (ch :: read) rest
    | none => none
  | '\\' :: c :: rest =>
    match unescape? c with
    | some ch => readText (ch :: read) rest
    | none => none
  | c :: rest => if c.toNat < 0x20 ∨ c = '\\' then none else readText (c :: read) rest
termination_by cs => cs.length

/-- Splits the digits off the front. -/
def spanDigits (cs : List Char) : List Char × List Char := cs.span Char.isDigit

/-- Reads the part of a number behind its point, if there is one. -/
def readFraction? : List Char → Option (List Char × List Char)
  | '.' :: rest =>
    let (digits, rest) := spanDigits rest
    if digits.isEmpty then none else some (digits, rest)
  | cs => some ([], cs)

/-- Reads the exponent of a number, if there is one. -/
def readExponent? (cs : List Char) : Option (Option Int × List Char) :=
  match cs with
  | c :: rest =>
    if c = 'e' ∨ c = 'E' then
      let (negative, rest) := match rest with
        | '-' :: rest => (true, rest)
        | '+' :: rest => (false, rest)
        | rest => (false, rest)
      let (digits, rest) := spanDigits rest
      if digits.isEmpty then none
      else
        let size : Int := Decimal.ofDigits digits
        some (some (if negative then -size else size), rest)
    else some (none, cs)
  | [] => some (none, [])

/-- Whether a whole number is kept as one: it fits a word of 64 bits, signed or not. -/
def fitsWord (n : Int) : Bool := Int64.minValue.toInt ≤ n && n < UInt64.size

/-- Reads a number. -/
def readNumber (cs : List Char) : Option (Tree × List Char) := do
  let (negative, cs) := match cs with
    | '-' :: rest => (true, rest)
    | cs => (false, cs)
  let (whole, cs) := spanDigits cs
  if whole.isEmpty ∨ (whole.head? = some '0' ∧ whole.length > 1) then none
  let (fraction, cs) ← readFraction? cs
  let (exponent, cs) ← readExponent? cs
  let size := Decimal.ofDigits (whole ++ fraction)
  let value : Int := if negative then -size else size
  if fraction.isEmpty && exponent.isNone && fitsWord value && !(negative && size = 0) then
    return (.int value, cs)
  let x := Decimal.toDouble negative size (exponent.getD 0 - fraction.length)
  if x.isFinite then return (.float x, cs) else none

/-- Adds a member in place of an earlier one of its key. -/
def setMember (members : List (String × Tree)) (key : String) (value : Tree) :
    List (String × Tree) :=
  members.filter (·.1 ≠ key) ++ [(key, value)]

mutual

/-- Reads a value; `steps` bounds the work. -/
def readValue (steps : Nat) (cs : List Char) : Option (Tree × List Char) :=
  match steps with
  | 0 => none
  | steps + 1 =>
    match skipBlanks cs with
    | 'n' :: 'u' :: 'l' :: 'l' :: rest => some (.null, rest)
    | 't' :: 'r' :: 'u' :: 'e' :: rest => some (.bool true, rest)
    | 'f' :: 'a' :: 'l' :: 's' :: 'e' :: rest => some (.bool false, rest)
    | '"' :: rest => (readText [] rest).map fun (s, rest) => (.text s, rest)
    | '[' :: rest =>
      match skipBlanks rest with
      | ']' :: rest => some (.array [], rest)
      | rest => readElements steps [] rest
    | '\x7b' :: rest =>
      match skipBlanks rest with
      | '\x7d' :: rest => some (.object [], rest)
      | rest => readMembers steps [] rest
    | cs => readNumber cs

/-- Reads the elements of an array; `read` holds those read, last one first. -/
def readElements (steps : Nat) (read : List Tree) (cs : List Char) : Option (Tree × List Char) :=
  match steps with
  | 0 => none
  | steps + 1 =>
    match readValue steps cs with
    | none => none
    | some (t, rest) =>
      match skipBlanks rest with
      | ',' :: rest => readElements steps (t :: read) rest
      | ']' :: rest => some (.array (t :: read).reverse, rest)
      | _ => none

/-- Reads the members of an object. -/
def readMembers (steps : Nat) (read : List (String × Tree)) (cs : List Char) :
    Option (Tree × List Char) :=
  match steps with
  | 0 => none
  | steps + 1 =>
    match skipBlanks cs with
    | '"' :: rest =>
      match readText [] rest with
      | none => none
      | some (key, rest) =>
        match skipBlanks rest with
        | ':' :: rest =>
          match readValue steps rest with
          | none => none
          | some (t, rest) =>
            let read := setMember read key t
            match skipBlanks rest with
            | ',' :: rest => readMembers steps read rest
            | '\x7d' :: rest => some (.object read, rest)
            | _ => none
        | _ => none
    | _ => none

end

/-- Reads a whole text. -/
def read? (s : String) : Option Tree :=
  let cs := s.toList
  match readValue (2 * cs.length + 2) cs with
  | some (t, rest) => if (skipBlanks rest).isEmpty then some t else none
  | none => none

end Spellcasting.Json
