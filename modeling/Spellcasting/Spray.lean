import Spellcasting.Vec3

/-! # Particle sprays

A spray only tells what is to be shown; nothing that is evaluated reads it.
-/

namespace Spellcasting

/-- A spray of particles. -/
structure Spray where
  pos : Vec3
  vel : Vec3
  fuzziness : Double
  /-- Half the angle of the cone, in radians. -/
  spread : Double
  count : UInt32
  deriving DecidableEq

namespace Spray

def defaultCount : UInt32 := 20

/-- Half a turn, as the nearest double. -/
def halfTurn : Double := ⟨0x400921fb54442d18⟩

/-- Particles flying from a point in every direction. -/
def burstOf (pos : Vec3) (size : Double) (count : UInt32) : Spray :=
  ⟨pos, ⟨size, 0, 0⟩, 0, halfTurn, count⟩

/-- A burst with the usual number of particles. -/
def burst (pos : Vec3) (size : Double) : Spray := burstOf pos size defaultCount

/-- The radius of a burst. -/
def size (s : Spray) : Double := s.vel.length

end Spray

end Spellcasting
