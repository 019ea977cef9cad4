import Spellcasting.Toml.Number
import Spellcasting.Toml.Table
import Spellcasting.Toml.Text

/-! # Reading TOML

A document is read statement by statement: a header opens a table, and a key with a value adds to
the table opened last. The reader answers the tree of the whole document, or nothing if any
statement is malformed or defines something twice.
-/

namespace Spellcasting.Toml

/-- How deeply arrays and inline tables may be nested. -/
def nestingLimit : Nat := 79

mutual

/-- Reads a value; `steps` bounds the work, and `levels` the nesting that is still allowed. -/
def readValue (steps levels : Nat) (cs : List Char) : Option (Tree × List Char) :=
  match steps with
  | 0 => none
  | steps + 1 =>
    match cs with
    | '[' :: rest =>
      if levels = 0 then none else readElements steps (levels - 1) [] rest
    | '\x7b' :: rest =>
      if levels = 0 then none
      else
        match skipBlanks rest with
        | '\x7d' :: rest => some (.object [], rest)
        | rest => readPairs steps (levels - 1) [] rest
    | '"' :: _ => (readText? cs).map fun (s, rest) => (.text s, rest)
    | '\'' :: _ => (readText? cs).map fun (s, rest) => (.text s, rest)
    | 't' :: 'r' :: 'u' :: 'e' :: rest => some (.bool true, rest)
    | 'f' :: 'a' :: 'l' :: 's' :: 'e' :: rest => some (.bool false, rest)
    | cs => readNumeric? cs

/-- Reads the elements of an array up to its bracket; `read` holds those read, last one first. Lines
may end and comments may stand between them, and a comma behind the last one. -/
def readElements (steps levels : Nat) (read : List Tree) (cs : List Char) :
    Option (Tree × List Char) :=
  match steps with
  | 0 => none
  | steps + 1 =>
    match skipLines? steps cs with
    | none => none
    | some (']' :: rest) => some (.array read.reverse, rest)
    | some rest =>
      match readValue steps levels rest with
      | none => none
      | some (t, rest) =>
        match skipLines? steps rest with
        | some (',' :: rest) => readElements steps levels (t :: read) rest
        | some (']' :: rest) => some (.array (t :: read).reverse, rest)
        | _ => none

/-- Reads the pairs of an inline table up to its brace. -/
def readPairs (steps levels : Nat) (read : Entries) (cs : List Char) : Option (Tree × List Char) :=
  match steps with
  | 0 => none
  | steps + 1 =>
    match readDottedKey? cs with
    | some (key, '=' :: rest) =>
      match readValue steps levels (skipBlanks rest) with
      | none => none
      | some (t, rest) =>
        match read.add t key with
        | none => none
        | some read =>
          match skipBlanks rest with
          | ',' :: rest => readPairs steps levels read rest
          | '\x7d' :: rest => some (.object (Node.toMembers read), rest)
          | _ => none
    | _ => none

end

/-- A document that has been read in part: all tables, and the path of the one opened last. -/
structure Document where
  root : Entries
  path : List String

namespace Document

/-- Adds a value to the table opened last. -/
def add (d : Document) (key : List String) (t : Tree) : Option Document :=
  (d.root.at? (fun entries => entries.add t key) d.path).map ({ d with root := · })

/-- Opens the table of a header, or one more table of a repeated header. -/
def openHeader (d : Document) (repeated : Bool) (path : List String) : Option Document :=
  match path.reverse with
  | [] => none
  | key :: parents =>
    let change (entries : Entries) :=
      if repeated then entries.openElement key else entries.openTable key
    (d.root.at? change parents.reverse).map (⟨·, path⟩)

end Document

/-- Reads a header behind its opening brackets, up to the end of its line. -/
def readHeader? (d : Document) (repeated : Bool) (cs : List Char) :
    Option (Document × List Char) := do
  let (path, cs) ← readDottedKey? cs
  let cs ← expect? ']' cs
  let cs ← if repeated then expect? ']' cs else some cs
  let cs ← lineEnd? cs
  return (← d.openHeader repeated path, cs)

/-- Reads a key and its value, up to the end of their line. -/
def readPair? (d : Document) (cs : List Char) : Option (Document × List Char) := do
  let (key, cs) ← readDottedKey? cs
  let cs ← expect? '=' cs
  let (t, cs) ← readValue (2 * cs.length + 2) nestingLimit (skipBlanks cs)
  let cs ← lineEnd? cs
  return (← d.add key t, cs)

/-- Reads statements to the end of the text. -/
def readStatements? : Nat → Document → List Char → Option Document
  | 0, _, _ => none
  | steps + 1, d, cs =>
    match skipBlanks cs with
    | [] => some d
    | '#' :: rest => (lineEnd? ('#' :: rest)).bind (readStatements? steps d)
    | '\n' :: rest => readStatements? steps d rest
    | '\r' :: rest => (newline? ('\r' :: rest)).bind (readStatements? steps d)
    | '[' :: '[' :: rest =>
      match readHeader? d true rest with
      | some (d, rest) => readStatements? steps d rest
      | none => none
    | '[' :: rest =>
      match readHeader? d false rest with
      | some (d, rest) => readStatements? steps d rest
      | none => none
    | rest =>
      match readPair? d rest with
      | some (d, rest) => readStatements? steps d rest
      | none => none

/-- Reads a document, with or without a byte order mark in front. -/
def read? (s : String) : Option Tree :=
  let cs := match s.toList with
    | '\ufeff' :: rest => rest
    | cs => cs
  (readStatements? (cs.length + 1) ⟨[], []⟩ cs).map fun d => .object (Node.toMembers d.root)

end Spellcasting.Toml
