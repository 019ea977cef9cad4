import Spellcasting.Hand
import Spellcasting.Iota

/-! # Mishaps

A mishap is something the caster did and is told about: a structured failure that carries the value
at fault. That there is nothing to do is not a mishap.
-/

namespace Spellcasting

/-- A failure of a cast, with what is needed to explain it. -/
inductive Mishap where
  | notEnoughArgs (expected got : UInt64)
  /-- `index` counts down from the top of the stack. -/
  | invalidIota (index : UInt64) (expected : String) (got : Iota)
  | badItem (entity : EntityRef) (item : ItemStack) (wanted : String)
  | badOffhandItem (item : ItemStack) (hand : Hand) (wanted : String)
  | entityTooFarAway (entity : EntityRef)
  | locationTooFarAway (location : Vec3)
  | divideByZero (operand1 operand2 : Iota)
  | notEnoughMedia (required available : Media)
  | evalTooDeep (limit : UInt64)
  | stackOverflow (limit : UInt64)
  | invalidPattern (name : String)

/-- The kinds of mishap. -/
inductive MishapKind where
  | notEnoughArgs
  | invalidIota
  | badItem
  | badOffhandItem
  | entityTooFarAway
  | locationTooFarAway
  | divideByZero
  | notEnoughMedia
  | evalTooDeep
  | stackOverflow
  | invalidPattern
  deriving DecidableEq

namespace MishapKind

/-- The kinds and their names, in order. -/
def names : List (String × MishapKind) :=
  [("not_enough_args", notEnoughArgs), ("invalid_iota", invalidIota), ("bad_item", badItem),
    ("bad_offhand_item", badOffhandItem), ("entity_too_far_away", entityTooFarAway),
    ("location_too_far_away", locationTooFarAway), ("divide_by_zero", divideByZero),
    ("not_enough_media", notEnoughMedia), ("eval_too_deep", evalTooDeep),
    ("stack_overflow", stackOverflow), ("invalid_pattern", invalidPattern)]

def name : MishapKind → String
  | notEnoughArgs => "not_enough_args"
  | invalidIota => "invalid_iota"
  | badItem => "bad_item"
  | badOffhandItem => "bad_offhand_item"
  | entityTooFarAway => "entity_too_far_away"
  | locationTooFarAway => "location_too_far_away"
  | divideByZero => "divide_by_zero"
  | notEnoughMedia => "not_enough_media"
  | evalTooDeep => "eval_too_deep"
  | stackOverflow => "stack_overflow"
  | invalidPattern => "invalid_pattern"

end MishapKind

namespace Mishap

/-- The place, counted down from the top of the stack, of the argument at `idx` of an operator
taking `argc` arguments; an operator without arguments leaves the count as it is. -/
def placeFromTop (idx argc : Nat) : Nat := if argc = 0 then idx else argc - (idx + 1)

/-- An argument of the wrong type: the one at `idx`, counted from the bottom of the `argc` popped.
-/
def wrongType (got : Iota) (idx argc : Nat) (expected : String) : Mishap :=
  invalidIota (.ofNat (placeFromTop idx argc)) expected got

/-- A stack that is too short for what is asked of it. -/
def tooFew (expected got : Nat) : Mishap := notEnoughArgs (.ofNat expected) (.ofNat got)

def kind : Mishap → MishapKind
  | notEnoughArgs .. => .notEnoughArgs
  | invalidIota .. => .invalidIota
  | badItem .. => .badItem
  | badOffhandItem .. => .badOffhandItem
  | entityTooFarAway .. => .entityTooFarAway
  | locationTooFarAway .. => .locationTooFarAway
  | divideByZero .. => .divideByZero
  | notEnoughMedia .. => .notEnoughMedia
  | evalTooDeep .. => .evalTooDeep
  | stackOverflow .. => .stackOverflow
  | invalidPattern .. => .invalidPattern

/-- The short tag of what was wanted instead. -/
def reasonTag? : Mishap → Option String
  | invalidIota _ expected _ => some expected
  | badItem _ _ wanted => some wanted
  | badOffhandItem _ _ wanted => some wanted
  | _ => none

/-- The hand at fault. -/
def hand? : Mishap → Option Hand
  | badOffhandItem _ hand _ => some hand
  | _ => none

/-- The key under which the message is looked up in another language. -/
def messageKey (m : Mishap) : String :=
  let base := "hexcast.mishap." ++ m.kind.name
  match m with
  | badItem _ _ wanted => base ++ "." ++ wanted
  | badOffhandItem _ _ wanted => base ++ "." ++ wanted
  | _ => base

/-- A whole number in digits. -/
private def digits (n : UInt64) : String := Nat.repr n.toNat

/-- What the caster is told. -/
def message : Mishap → String
  | notEnoughArgs expected got =>
    "expected " ++ digits expected ++ " arguments but the stack was only " ++ digits got ++ " tall"
  | invalidIota index expected got =>
    "expected " ++ expected ++ " at index " ++ digits index ++ " of the stack, but got " ++ got.text
  | badItem entity item wanted =>
    "needs a " ++ wanted ++ " item, but " ++ entity.text ++ " carries " ++ item.text
  | badOffhandItem item hand wanted =>
    "needs a " ++ wanted ++ " item in the " ++ hand.name ++ " hand, but got " ++ item.text
  | entityTooFarAway entity => entity.text ++ " is out of range"
  | locationTooFarAway location => location.text ++ " is out of range"
  | divideByZero operand1 operand2 =>
    "attempted to divide " ++ operand1.text ++ " by " ++ operand2.text
  | notEnoughMedia required available =>
    "not enough media: needed " ++ digits required ++ ", only " ++ digits available ++ " available"
  | evalTooDeep limit => "evaluated more than " ++ digits limit ++ " operators in one cast"
  | stackOverflow limit => "the stack grew past " ++ digits limit ++ " iotas"
  | invalidPattern name => "unknown pattern '" ++ name ++ "'"

end Mishap

end Spellcasting
