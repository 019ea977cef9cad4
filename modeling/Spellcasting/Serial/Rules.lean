import Spellcasting.Decimal.Reading
import Spellcasting.Tree

/-! # Rules of reading trees

A value is read from a tree by the rules of the format that the tree was written in. A record is an
object of its fields or an array of them in order; a name out of a fixed list is its text. The
formats differ in small liberties, and so does a part of a tree that had to be held back until the
tag that says how to read it was known.
-/

namespace Spellcasting

/-- The written formats. -/
inductive Format where
  | json
  | toml
  deriving DecidableEq

/-- The liberties of one place of a tree. -/
structure Rules where
  format : Format
  /-- Whether the place was held back until a tag was known. -/
  held : Bool
  deriving DecidableEq

namespace Tree

def bool? : Tree → Option Bool
  | bool b => some b
  | _ => none

def text? : Tree → Option String
  | text s => some s
  | _ => none

/-- A number as a double, also a whole one. -/
def float? : Tree → Option Double
  | float x => some x
  | int n => some (Decimal.ofInt n)
  | _ => none

/-- A whole number that fits a word of 64 bits. -/
def word64? : Tree → Option UInt64
  | int n => if 0 ≤ n ∧ n.toNat < UInt64.size then some (.ofNat n.toNat) else none
  | _ => none

/-- A whole number that fits a word of 32 bits. -/
def word32? : Tree → Option UInt32
  | int n => if 0 ≤ n ∧ n.toNat < UInt32.size then some (.ofNat n.toNat) else none
  | _ => none

/-- A whole number that fits a byte. -/
def byte? : Tree → Option UInt8
  | int n => if 0 ≤ n ∧ n.toNat < UInt8.size then some (.ofNat n.toNat) else none
  | _ => none

def array? : Tree → Option (List Tree)
  | array elements => some elements
  | _ => none

def object? : Tree → Option (List (String × Tree))
  | object members => some members
  | _ => none

/-- Reads a value that may be null. -/
def option? {α : Type} (read : Tree → Option α) : Tree → Option (Option α)
  | null => some none
  | t => (read t).map some

end Tree

/-- The fields of a record as they are written: by name, or by place. -/
inductive Record where
  | named (members : List (String × Tree))
  | placed (elements : List Tree)

namespace Record

/-- What is written for the field of a name and a place. -/
def field? : Record → String → Nat → Option Tree
  | named members, name, _ => members.lookup name
  | placed elements, _, place => elements[place]?

/-- Reads a field that has to be there. -/
def required {α : Type} (r : Record) (name : String) (place : Nat) (read : Tree → Option α) :
    Option α :=
  (r.field? name place).bind read

/-- Reads a field that has a value where it is not written. -/
def defaulted {α : Type} (r : Record) (name : String) (place : Nat) (value : α)
    (read : Tree → Option α) : Option α :=
  match r.field? name place with
  | none => some value
  | some t => read t

/-- Whether no field is written but those of the given names. -/
def isOnly (r : Record) (names : List String) : Bool :=
  match r with
  | named members => members.all fun m => names.contains m.1
  | placed _ => true

/-- Whether an array holds no more than the given number of fields. -/
def fits (r : Record) (size : Nat) : Bool :=
  match r with
  | named _ => true
  | placed elements => elements.length ≤ size

end Record

namespace Rules

def json : Rules := ⟨.json, false⟩

def toml : Rules := ⟨.toml, false⟩

/-- The rules inside a part that was held back. -/
def hold (rules : Rules) : Rules := { rules with held := true }

/-- Whether an array may have more elements than the record or the position it stands for. -/
def allowsSurplus (rules : Rules) : Bool := rules.format = .toml && !rules.held

/-- Whether a tag may be given by its number among the names. -/
def allowsNumbers (rules : Rules) : Bool := rules.format = .json && rules.held

/-- Whether a tree stands for having no content. -/
def isBare (rules : Rules) : Tree → Bool
  | .null => rules.format = .json
  | .array elements => rules.format = .toml && !rules.held && elements.isEmpty
  | .object members => (rules.format = .toml || rules.held) && members.isEmpty
  | _ => false

/-- The record of so many fields that a tree stands for. -/
def record? (rules : Rules) (size : Nat) : Tree → Option Record
  | .object members => some (.named members)
  | .array elements =>
    if rules.allowsSurplus || elements.length ≤ size then some (.placed elements) else none
  | _ => none

/-- Reads one of some names, alone or as the only key of an object without content. -/
def name? {α : Type} (rules : Rules) (names : List (String × α)) : Tree → Option α
  | .text s => names.lookup s
  | .object [(s, content)] => if rules.isBare content then names.lookup s else none
  | _ => none

/-- Reads the tag that tells the cases of a value apart. -/
def tag? {α : Type} (rules : Rules) (names : List (String × α)) : Tree → Option α
  | .text s => names.lookup s
  | .int n =>
    if rules.allowsNumbers && 0 ≤ n then (names[n.toNat]?).map (·.2) else none
  | _ => none

/-- Reads a record whose tag stands among its fields, under `kind` or in front of them. -/
def tagged? {α : Type} (rules : Rules) (names : List (String × α)) : Tree → Option (α × Record)
  | .object members =>
    (members.lookup "kind").bind fun t => (rules.tag? names t).map (·, .named members)
  | .array (first :: rest) => (rules.tag? names first).map (·, .placed rest)
  | _ => none

end Rules

end Spellcasting
