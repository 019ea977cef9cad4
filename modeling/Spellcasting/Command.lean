import Spellcasting.Config.Template
import Spellcasting.Json.Printer
import Spellcasting.Scenario.Outcome
import Spellcasting.Text.Terminal

/-! # Commands

What the program can be told to do, and what it answers: a text to print, an exit code, and a
complaint where something went wrong. A scenario that ends in a mishap is printed all the same and
has an exit code of its own.
-/

namespace Spellcasting

/-- A command to the program. -/
inductive Command where
  /-- Casts a scenario from a file, with settings from a file or searched for. -/
  | run (file : String) (config : Option String)
  /-- Lists the stock operators. -/
  | ops
  /-- Makes a settings file in the current directory. -/
  | init
  | version
  | help

/-- What the program complains of. -/
inductive Complaint where
  /-- The command could not be carried out. -/
  | fault (message : String)
  /-- The command line was not understood. -/
  | misuse (message : String)

/-- What the program answers. -/
structure Answer where
  code : UInt8
  output : String
  complaint : Option Complaint

/-- The complaint as a line. Only the label of a fault is red. -/
def Complaint.line : Complaint → String
  | fault message => Terminal.styled "31" "error:" ++ " " ++ message ++ "\n"
  | misuse message => "error: " ++ message ++ "\n"

namespace Answer

/-- The exit code of a cast that ended in a mishap. -/
def mishapCode : UInt8 := 2

def success (output : String) : Answer := ⟨0, output, none⟩

/-- Nothing was done. -/
def failure (message : String) : Answer := ⟨1, "", some (.fault message)⟩

/-- The command line was not understood. -/
def misuse (message : String) : Answer := ⟨2, "", some (.misuse message)⟩

end Answer

namespace Command

def versionText : String := "hexcast 0.3.0\n"

def usage : String :=
  String.intercalate "\n"
    ["Cast hexes against a sandbox world",
      "",
      "Usage: hexcast [OPTIONS] <COMMAND>",
      "",
      "Commands:",
      "  run FILE [--config CONFIG]  Run a scenario file and print the outcome as JSON",
      "  ops                         List the registered operators",
      "  init                        Create a hexcast.toml config file in the current directory",
      "",
      "Options:",
      "  -v, --verbose  Ask for more detail",
      "  -h, --help     Print help",
      "  -V, --version  Print version",
      ""]

/-- The line of an operator in the listing. The codes for bold type count towards the width. -/
def operatorLine (op : StockOperator) : String :=
  Terminal.padRight 16 (Terminal.styled "1" op.name) ++ " " ++
    Terminal.styled "90" op.signature ++ "\n"

/-- What is said of a file that was made. -/
def createdLine (path : String) : String :=
  Terminal.styled "1;32" (Terminal.padLeft 12 "Created") ++ " " ++ path ++ "\n"

/-- The answer to a cast. -/
def outcomeAnswer (outcome : Outcome) : Answer where
  code := if outcome.isCast then 0 else Answer.mishapCode
  output := Json.pretty outcome.toTree ++ "\n"
  complaint := none

variable {m : Type → Type} [Monad m] [Host m]

/-- The settings of a file, or those that are found where no file is given. -/
def settings : Option String → m (Except LoadError Config)
  | some path => Config.load path
  | none => return .ok (← Config.found)

/-- Casts a scenario; the settings are loaded first. -/
def runScenario (ids : Nat → EntityId) (file : String) (config : Option String) : m Answer := do
  match ← settings config with
  | .error e => return .failure e.message
  | .ok config =>
    match ← Scenario.load file with
    | .error e => return .failure e.message
    | .ok scenario =>
      match scenario.prepare ids config.casting with
      | .error fault => return .failure fault.message
      | .ok prepared => return outcomeAnswer (prepared.run config.casting)

/-- Carries out a command; entities that it brings into a world get the given identities. -/
def perform (ids : Nat → EntityId) : Command → m Answer
  | run file config => runScenario ids file config
  | ops => return .success (String.join (StockOperator.all.map operatorLine))
  | init => do
    match ← Config.init "." with
    | .error e => return .failure e.message
    | .ok path => return .success (createdLine path)
  | version => return .success versionText
  | help => return .success usage

end Command

end Spellcasting
