import Spellcasting.Decimal.Shortest
import Spellcasting.Tree

/-! # Printing JSON

Two layouts of the same text: one without any blank, and one with a line for each element and two
blanks for each level of nesting.
-/

namespace Spellcasting.Json

/-- The layout of doubles: written in full from `1e-5` up to `1e16`. -/
def numberLayout : Decimal.Layout := ⟨-4, 16⟩

/-- One character of a text. Quotes, backslashes and control characters are escaped. -/
def escape (c : Char) : String :=
  if c = '"' then "\\\""
  else if c = '\\' then "\\\\"
  else if c = '\x08' then "\\b"
  else if c = '\t' then "\\t"
  else if c = '\n' then "\\n"
  else if c = '\x0c' then "\\f"
  else if c = '\r' then "\\r"
  else if c.toNat < 0x20 then
    "\\u00" ++ String.ofList [Nat.digitChar (c.toNat / 16), Nat.digitChar (c.toNat % 16)]
  else c.toString

/-- A text in quotes. -/
def quoted (s : String) : String := "\"" ++ String.join (s.toList.map escape) ++ "\""

/-- A whole number in digits. -/
def wholeNumber (n : Int) : String := (if n < 0 then "-" else "") ++ Nat.repr n.natAbs

/-- A double in the fewest digits; what is not finite is null. -/
def double (x : Double) : String := (numberLayout.text? x).getD "null"

def truth (b : Bool) : String := if b then "true" else "false"

mutual

/-- The text without blanks. -/
def compact : Tree → String
  | .null => "null"
  | .bool b => truth b
  | .int n => wholeNumber n
  | .float x => double x
  | .text s => quoted s
  | .array elements => "[" ++ String.intercalate "," (compactAll elements) ++ "]"
  | .object members => "\x7b" ++ String.intercalate "," (compactMembers members) ++ "\x7d"

/-- The texts of the elements of an array. -/
def compactAll : List Tree → List String
  | [] => []
  | t :: rest => compact t :: compactAll rest

/-- The texts of the members of an object. -/
def compactMembers : List (String × Tree) → List String
  | [] => []
  | (key, t) :: rest => (quoted key ++ ":" ++ compact t) :: compactMembers rest

end

/-- Lines between brackets, one level further in than the brackets are. -/
def block (opening closing indent : String) (lines : List String) : String :=
  if lines.isEmpty then opening ++ closing
  else
    let line := "\n" ++ indent ++ "  "
    opening ++ line ++ String.intercalate ("," ++ line) lines ++ "\n" ++ indent ++ closing

mutual

/-- The text in lines, for a place that is indented so far. -/
def prettyAt (indent : String) : Tree → String
  | .null => "null"
  | .bool b => truth b
  | .int n => wholeNumber n
  | .float x => double x
  | .text s => quoted s
  | .array elements => block "[" "]" indent (prettyAll (indent ++ "  ") elements)
  | .object members => block "\x7b" "\x7d" indent (prettyMembers (indent ++ "  ") members)

/-- The lines of the elements of an array. -/
def prettyAll (indent : String) : List Tree → List String
  | [] => []
  | t :: rest => prettyAt indent t :: prettyAll indent rest

/-- The lines of the members of an object. -/
def prettyMembers (indent : String) : List (String × Tree) → List String
  | [] => []
  | (key, t) :: rest => (quoted key ++ ": " ++ prettyAt indent t) :: prettyMembers indent rest

end

/-- The text in lines. -/
def pretty (t : Tree) : String := prettyAt "" t

end Spellcasting.Json
