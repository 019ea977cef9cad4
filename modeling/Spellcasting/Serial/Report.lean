import Spellcasting.Casting.Batch
import Spellcasting.Serial.Mishap

/-! # Trees of reports and failures -/

namespace Spellcasting

def CastReport.toTree (r : CastReport) : Tree :=
  .object [("media_spent", .ofWord r.mediaSpent), ("media_drawn", .ofWord r.mediaDrawn),
    ("spells_cast", .int r.spellsCast), ("particles", .array (r.particles.map Spray.toTree)),
    ("stack", .array (Iota.toTrees r.stack))]

def CastFailure.toTree (f : CastFailure) : Tree :=
  let index := match f.index with
    | none => Tree.null
    | some index => .int index
  .object [("index", index), ("mishap", f.mishap.toTree)]

end Spellcasting
