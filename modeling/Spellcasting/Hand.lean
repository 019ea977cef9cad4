/-! # The caster's hands -/

namespace Spellcasting

/-- One of the two hands of the caster. -/
inductive Hand where
  | main
  | off
  deriving DecidableEq

namespace Hand

/-- The hand that is not this one. -/
def other : Hand → Hand
  | main => off
  | off => main

@[simp] theorem other_other (h : Hand) : h.other.other = h := by cases h <;> rfl

/-- The hands and their names. -/
def names : List (String × Hand) := [("main", main), ("off", off)]

def name : Hand → String
  | main => "main"
  | off => "off"

end Hand

end Spellcasting
