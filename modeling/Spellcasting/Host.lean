/-! # The host

What the program asks of the machine that it runs on: texts of files, the current directory and the
variables of its environment. Everything that works with files is written for any host, so that it
can run on a real machine as well as on files that are only held in memory.
-/

namespace Spellcasting

/-- Why a file cannot be read or written. -/
inductive FileError where
  | missing
  | isDirectory
  | notDirectory
  | nameTooLong
  | invalidName
  /-- Any other cause, in the words of the host. -/
  | other (message : String)

def FileError.message : FileError → String
  | missing => "No such file or directory (os error 2)"
  | isDirectory => "Is a directory (os error 21)"
  | notDirectory => "Not a directory (os error 20)"
  | nameTooLong => "File name too long (os error 36)"
  | invalidName => "file name contained an unexpected NUL byte"
  | other message => message

/-- A machine to run on. -/
class Host (m : Type → Type) where
  readText : String → m (Except FileError String)
  writeText : String → String → m (Except FileError Unit)
  /-- Whether there is a file or a directory. -/
  hasPath : String → m Bool
  /-- The absolute path of the current directory. -/
  currentDirectory : m String
  /-- The value of a variable of the environment. -/
  getEnv? : String → m (Option String)

end Spellcasting
