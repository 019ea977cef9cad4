import Spellcasting.Command.Line

/-! # The program

Runs a command line on the machine. Answers go to standard output, complaints to standard error.
-/

namespace Spellcasting

/-- The cause of a failed operation on a file. The number of a cause may come with either sign. -/
def FileError.ofError : IO.Error → FileError
  | .noFileOrDirectory .. => .missing
  | .inappropriateType _ code _ => ofTypeCode (min code (0 - code))
  | .permissionDenied .. => .other "Permission denied (os error 13)"
  | e => .other (toString e)
where
  /-- The cause of a number that is about files and directories. -/
  ofTypeCode (code : UInt32) : FileError := if code = 20 then .notDirectory else .isDirectory

instance : Host IO where
  readText path := do
    try return .ok (← IO.FS.readFile path)
    catch e => return .error (.ofError e)
  writeText path content := do
    try
      IO.FS.writeFile path content
      return .ok ()
    catch e => return .error (.ofError e)
  hasPath path := do
    try
      let _ ← IO.FS.realPath path
      return true
    catch _ => return false
  currentDirectory := return toString (← IO.currentDir)
  getEnv? name := IO.getEnv name

/-- Identities for the entities of one run, one after the other from a random start. -/
def freshIds : IO (Nat → EntityId) := do
  let tag ← IO.rand 0 (1 <<< 48)
  let start ← IO.rand 0 (1 <<< 48)
  return fun n => .ofNat ((tag <<< 80) + (4 <<< 76) + (2 <<< 62) + start + n)

end Spellcasting

open Spellcasting in
def main (args : List String) : IO UInt32 := do
  let answer ← answer (← freshIds) args
  IO.print answer.output
  match answer.complaint with
  | some complaint => IO.eprint complaint.line
  | none => pure ()
  return answer.code.toUInt32
