import Spellcasting.Loading

/-! # The template of a settings file

A new settings file names all settings with their standard values, so that reading it changes
nothing.
-/

namespace Spellcasting

namespace Config

/-- The text of a new settings file. -/
def template : String :=
  String.intercalate "\n"
    ["# Hexcast Configuration",
      "",
      "[casting]",
      "# Radius (in blocks) around the caster within which entities can be targeted.",
      "ambit_radius = 32.0",
      "",
      "# Operators evaluated in a single cast before it fails with `eval_too_deep`.",
      "max_op_count = 1000000",
      "",
      "# Iotas the stack may hold before the cast fails with `stack_overflow`.",
      "max_stack_depth = 1024",
      "",
      "# Set to false to cast without paying media.",
      "require_media = true",
      ""]

end Config

/-- Why a settings file cannot be made. -/
inductive InitError where
  /-- What is already there is left as it is. -/
  | occupied (path : String)
  | unwritable (path : String) (cause : FileError)

def InitError.message : InitError → String
  | occupied path => path ++ " already exists, not overwriting"
  | unwritable path cause => "writing " ++ path ++ ": " ++ cause.message

/-- Makes a settings file from the template and answers its path. -/
def Config.init {m : Type → Type} [Monad m] [Host m] (directory : String) :
    m (Except InitError String) := do
  let path := Path.join directory Config.fileName
  if ← Host.hasPath path then return .error (.occupied path)
  match ← Host.writeText path Config.template with
  | .error cause => return .error (.unwritable path cause)
  | .ok () => return .ok path

end Spellcasting
