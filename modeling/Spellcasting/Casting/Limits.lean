import Spellcasting.Double

/-! # Limits of casting -/

namespace Spellcasting

/-- What bounds a cast, and whether it has to be paid for. -/
structure Limits where
  /-- How far from the caster targets may be. -/
  ambitRadius : Double
  /-- How many operators one cast may evaluate. -/
  maxOpCount : UInt64
  /-- How many iotas the stack may hold. -/
  maxStackDepth : UInt64
  /-- Whether casts are paid for. A free cast still reports what it would have cost. -/
  requireMedia : Bool
  deriving DecidableEq

/-- The limits where nothing else is configured. -/
def Limits.standard : Limits where
  ambitRadius := 32
  maxOpCount := 1000000
  maxStackDepth := 1024
  requireMedia := true

/-- The settings of the program. -/
structure Config where
  casting : Limits
  deriving DecidableEq

def Config.standard : Config := ⟨.standard⟩

end Spellcasting
