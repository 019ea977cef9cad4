/-! # Paths of files

A path is a text of names with slashes between them. It is shown as it was given, so nothing here
tidies a path up.
-/

namespace Spellcasting.Path

/-- The path of a name in a directory. -/
def join (directory name : String) : String :=
  if directory.isEmpty || directory.endsWith "/" then directory ++ name
  else directory ++ "/" ++ name

/-- The names in a path, also the empty ones around its slashes. -/
def names (path : String) : List String := path.splitOn "/"

/-- The absolute path of some names, the last of them first. -/
def ofReversed (reversed : List String) : String := "/" ++ String.intercalate "/" reversed.reverse

/-- The absolute paths of a directory and of all directories around it, from the inside out; the
names come last one first. -/
def outward : List String → List String
  | [] => [ofReversed []]
  | name :: around => ofReversed (name :: around) :: outward around

/-- The directory of an absolute path and all directories around it, from the inside out. -/
def ancestors (path : String) : List String := outward ((names path).filter (· ≠ "")).reverse

end Spellcasting.Path
