import Spellcasting.Operator.Arguments

/-! # Operators on lists -/

namespace Spellcasting.Lists

/-- The empty list. -/
def emptyList (_ : Arguments) : Except Mishap (List Iota) := .ok [.list []]

/-- The list of one iota. -/
def singleton (args : Arguments) : Except Mishap (List Iota) := do
  let x ← args.any 0
  return [.list [x]]

/-- A list with one more iota at its end. -/
def append (args : Arguments) : Except Mishap (List Iota) := do
  let items ← args.get .list 0
  let x ← args.any 1
  return [.list (items ++ [x])]

/-- Two lists one after the other. -/
def concat (args : Arguments) : Except Mishap (List Iota) := do
  let front ← args.get .list 0
  let back ← args.get .list 1
  return [.list (front ++ back)]

/-- The member at the place nearest to a number, null where there is none. -/
def at? (items : List Iota) (place : Double) : Iota :=
  let place := Decimal.nearest place
  if place >= 0 && place < .ofNat items.length then items.getD place.toWord.toNat .null
  else .null

/-- The member of a list at a place. -/
def index (args : Arguments) : Except Mishap (List Iota) := do
  let items ← args.get .list 0
  let place ← args.get .double 1
  return [at? items place]

/-- The length of a list. -/
def size (args : Arguments) : Except Mishap (List Iota) := do
  let items ← args.get .list 0
  return [.double (.ofNat items.length)]

/-- A list from its end to its start. -/
def reverse (args : Arguments) : Except Mishap (List Iota) := do
  let items ← args.get .list 0
  return [.list items.reverse]

end Spellcasting.Lists
