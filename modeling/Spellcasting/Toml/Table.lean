import Spellcasting.Tree

/-! # Tables under construction

The statements of a document fill tables. How a table came about decides whether later statements
may still add to it: one opened by its header, one only named on the way to a header further in, or
one made by a key with points. Values, among them inline tables, are closed for good.
-/

namespace Spellcasting.Toml

/-- How a table came about. -/
inductive Origin where
  | header
  | implied
  | dotted
  deriving DecidableEq

/-- What stands under a key. -/
inductive Node where
  | value (t : Tree)
  | table (origin : Origin) (entries : List (String × Node))
  /-- Tables under one repeated header; only the last is open. -/
  | tables (earlier : List (List (String × Node))) (last : List (String × Node))

/-- The keys of a table and what stands under them, in order. -/
abbrev Entries := List (String × Node)

namespace Node

mutual

/-- The tree of a finished node. -/
def toTree : Node → Tree
  | value t => t
  | table _ entries => .object (toMembers entries)
  | tables earlier last => .array (toObjects earlier ++ [.object (toMembers last)])

/-- The members of a finished table. -/
def toMembers : List (String × Node) → List (String × Tree)
  | [] => []
  | (key, node) :: rest => (key, toTree node) :: toMembers rest

/-- The objects of finished tables. -/
def toObjects : List (List (String × Node)) → List Tree
  | [] => []
  | entries :: rest => .object (toMembers entries) :: toObjects rest

end

end Node

namespace Entries

/-- Puts a node under a key, in place of what stands there. -/
def set : Entries → String → Node → Entries
  | [], key, node => [(key, node)]
  | (k, n) :: rest, key, node =>
    if k = key then (k, node) :: rest else (k, n) :: set rest key node

/-- Adds a value under a key of one or more parts. Tables for the leading parts are made where they
are missing; the last of them has to be one made by a key with points, and the key itself must be
free. -/
def add (entries : Entries) (t : Tree) : List String → Option Entries
  | [] => none
  | [key] => if (entries.lookup key).isSome then none else some (entries ++ [(key, .value t)])
  | part :: next :: path =>
    let isLast := path.isEmpty
    match entries.lookup part with
    | none => (add [] t (next :: path)).map fun inner => entries ++ [(part, .table .dotted inner)]
    | some (.value _) => none
    | some (.table origin inner) =>
      if origin = .header || (origin = .implied && isLast) then none
      else (add inner t (next :: path)).map fun inner => entries.set part (.table origin inner)
    | some (.tables earlier last) =>
      if isLast then none
      else (add last t (next :: path)).map fun last => entries.set part (.tables earlier last)

/-- Changes the table at the end of a path of headers. Missing tables on the way are implied; where
a header is repeated the way leads through its last table. -/
def at? (entries : Entries) (change : Entries → Option Entries) : List String → Option Entries
  | [] => change entries
  | part :: path =>
    match entries.lookup part with
    | none => (at? [] change path).map fun inner => entries ++ [(part, .table .implied inner)]
    | some (.value _) => none
    | some (.table origin inner) =>
      (at? inner change path).map fun inner => entries.set part (.table origin inner)
    | some (.tables earlier last) =>
      (at? last change path).map fun last => entries.set part (.tables earlier last)

/-- Puts a node under a key, behind all others. -/
def setLast (entries : Entries) (key : String) (node : Node) : Entries :=
  entries.filter (·.1 ≠ key) ++ [(key, node)]

/-- Opens a table by its header. A table that was only implied may be opened once; it then stands
where its header stands. -/
def openTable (entries : Entries) (key : String) : Option Entries :=
  match entries.lookup key with
  | none => some (entries ++ [(key, .table .header [])])
  | some (.table .implied inner) => some (entries.setLast key (.table .header inner))
  | some _ => none

/-- Opens one more table under a repeated header. -/
def openElement (entries : Entries) (key : String) : Option Entries :=
  match entries.lookup key with
  | none => some (entries ++ [(key, .tables [] [])])
  | some (.tables earlier last) => some (entries.set key (.tables (earlier ++ [last]) []))
  | some _ => none

end Entries

end Spellcasting.Toml
