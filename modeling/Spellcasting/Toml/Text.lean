import Spellcasting.Text.Hexadecimal
import Spellcasting.Text.Scalar

/-! # Blanks, comments and texts of TOML

A text stands in single or in double quotes, on one line or, with the quotes tripled, on many.
Escapes count in double quotes only. Control characters other than the tab stand nowhere.
-/

namespace Spellcasting.Toml

/-- The blanks inside a line. -/
def isBlank (c : Char) : Bool := c = ' ' || c = '\t'

def skipBlanks (cs : List Char) : List Char := cs.dropWhile isBlank

/-- The characters that may stand in comments and texts. -/
def isPrintable (c : Char) : Bool := c = '\t' || (0x20 ≤ c.toNat && c.toNat ≠ 0x7f)

/-- Reads the end of a line. -/
def newline? : List Char → Option (List Char)
  | '\n' :: rest => some rest
  | '\r' :: '\n' :: rest => some rest
  | _ => none

/-- Skips a comment, if there is one. -/
def skipComment : List Char → List Char
  | '#' :: rest => rest.dropWhile isPrintable
  | cs => cs

/-- Reads what may stand behind a statement: blanks, a comment, and the end of the line or of the
text. -/
def lineEnd? (cs : List Char) : Option (List Char) :=
  match skipComment (skipBlanks cs) with
  | [] => some []
  | rest => newline? rest

/-- Skips blanks, comments and line ends, up to so many of them; `none` if a comment does not end
with its line. -/
def skipLines? : Nat → List Char → Option (List Char)
  | 0, cs => some cs
  | steps + 1, cs =>
    match skipBlanks cs with
    | '#' :: rest => (newline? (rest.dropWhile isPrintable)).bind (skipLines? steps)
    | '\n' :: rest => skipLines? steps rest
    | '\r' :: rest => (newline? ('\r' :: rest)).bind (skipLines? steps)
    | rest => some rest

/-- Reads what stands behind a backslash. -/
def readEscape? : List Char → Option (Char × List Char)
  | 'b' :: rest => some ('\x08', rest)
  | 't' :: rest => some ('\t', rest)
  | 'n' :: rest => some ('\n', rest)
  | 'f' :: rest => some ('\x0c', rest)
  | 'r' :: rest => some ('\r', rest)
  | '"' :: rest => some ('"', rest)
  | '\\' :: rest => some ('\\', rest)
  | 'u' :: rest => numbered 4 rest
  | 'U' :: rest => numbered 8 rest
  | _ => none
where
  /-- Reads a code point of so many hexadecimal digits. -/
  numbered (count : Nat) (cs : List Char) : Option (Char × List Char) :=
    let digits := cs.take count
    if digits.length = count then
      ((Hexadecimal.number? digits).bind Scalar.ofNat?).map (·, cs.drop count)
    else none

/-- Reads a text in double quotes on one line; `read` holds what has been read, last character
first. -/
def readBasic? : Nat → List Char → List Char → Option (String × List Char)
  | 0, _, _ => none
  | _, _, [] => none
  | steps + 1, read, c :: rest =>
    if c = '"' then some (String.ofList read.reverse, rest)
    else if c = '\\' then
      match readEscape? rest with
      | some (ch, rest) => readBasic? steps (ch :: read) rest
      | none => none
    else if isPrintable c then readBasic? steps (c :: read) rest
    else none

/-- Reads a text in single quotes on one line. -/
def readLiteral? (cs : List Char) : Option (String × List Char) :=
  let (body, rest) := cs.span fun c => isPrintable c && c ≠ '\''
  match rest with
  | '\'' :: rest => some (String.ofList body, rest)
  | _ => none

/-- Skips an escaped line end: blanks up to it, and all blanks and line ends behind it. -/
def escapedLineEnd? (cs : List Char) : Option (List Char) :=
  (newline? (skipBlanks cs)).map fun rest => skip rest.length rest
where
  skip : Nat → List Char → List Char
    | 0, cs => cs
    | steps + 1, cs =>
      match newline? (skipBlanks cs) with
      | some rest => skip steps rest
      | none => skipBlanks cs

/-- Reads a text of many lines up to three of its quotes, in front of which one or two more belong
to the text. Escapes count if the quotes are double. -/
def readLong? (quote : Char) : Nat → List Char → List Char → Option (String × List Char)
  | 0, _, _ => none
  | _, _, [] => none
  | steps + 1, read, c :: rest =>
    if c = quote then
      let run := 1 + (rest.takeWhile (· = quote)).length
      if run < 3 then
        readLong? quote steps (List.replicate run quote ++ read) (rest.drop (run - 1))
      else
        let inner := min (run - 3) 2
        some (String.ofList (List.replicate inner quote ++ read).reverse, rest.drop (inner + 2))
    else if c = '\\' ∧ quote = '"' then
      match escapedLineEnd? rest with
      | some rest => readLong? quote steps read rest
      | none =>
        match readEscape? rest with
        | some (ch, rest) => readLong? quote steps (ch :: read) rest
        | none => none
    else if isPrintable c then readLong? quote steps (c :: read) rest
    else
      match newline? (c :: rest) with
      | some rest => readLong? quote steps ('\n' :: read) rest
      | none => none

/-- Reads a text behind its opening tripled quotes; a line end right there does not belong to it. -/
def readLongFrom? (quote : Char) (cs : List Char) : Option (String × List Char) :=
  readLong? quote (cs.length + 1) [] ((newline? cs).getD cs)

/-- Reads a text of any form. -/
def readText? : List Char → Option (String × List Char)
  | '"' :: '"' :: '"' :: rest => readLongFrom? '"' rest
  | '"' :: rest => readBasic? (rest.length + 1) [] rest
  | '\'' :: '\'' :: '\'' :: rest => readLongFrom? '\'' rest
  | '\'' :: rest => readLiteral? rest
  | _ => none

/-- The characters of a key without quotes. -/
def isBare (c : Char) : Bool :=
  c.isAlphanum || c = '_' || c = '-'

/-- Reads one part of a key. -/
def readSimpleKey? : List Char → Option (String × List Char)
  | '"' :: rest => readBasic? (rest.length + 1) [] rest
  | '\'' :: rest => readLiteral? rest
  | cs =>
    let (key, rest) := cs.span isBare
    if key.isEmpty then none else some (String.ofList key, rest)

/-- How many parts a key may have. -/
def keyLimit : Nat := 79

/-- Reads a key: parts with points between them, blanks allowed around each; `read` holds the parts
read, last one first. -/
def readKey? : Nat → List String → List Char → Option (List String × List Char)
  | 0, _, _ => none
  | steps + 1, read, cs =>
    match readSimpleKey? (skipBlanks cs) with
    | none => none
    | some (part, rest) =>
      match skipBlanks rest with
      | '.' :: rest => readKey? steps (part :: read) rest
      | rest => some ((part :: read).reverse, rest)

/-- Reads a key of any number of parts up to the limit. -/
def readDottedKey? (cs : List Char) : Option (List String × List Char) := readKey? keyLimit [] cs

end Spellcasting.Toml
