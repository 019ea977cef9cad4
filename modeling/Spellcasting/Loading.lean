import Spellcasting.Host
import Spellcasting.Host.Path
import Spellcasting.Serial.Scenario
import Spellcasting.Toml.Reader

/-! # Loading settings and scenarios

Both are TOML documents. Settings that no path was given for are searched in the current directory,
then in the directories around it, then in the home directory; the first file found decides, and one
that cannot be read is as good as none at all.
-/

namespace Spellcasting

/-- Why a file cannot be loaded. -/
inductive LoadError where
  | unreadable (path : String) (cause : FileError)
  | malformedConfig (path : String)
  | malformedScenario (path : String)

def LoadError.message : LoadError → String
  | unreadable path cause => "cannot read '" ++ path ++ "': " ++ cause.message
  | malformedConfig path => "invalid toml in '" ++ path ++ "'"
  | malformedScenario path => "invalid scenario '" ++ path ++ "'"

/-- Reads settings from the text of a document. -/
def Config.read? (s : String) : Option Config := (Toml.read? s).bind (Config.ofTree? .toml)

/-- Reads a scenario from the text of a document. -/
def Scenario.read? (s : String) : Option Scenario := (Toml.read? s).bind (Scenario.ofTree? .toml)

/-- Reads the text of a file by a reader of documents. -/
def loadText {m : Type → Type} [Monad m] [Host m] {α : Type} (read? : String → Option α)
    (malformed : LoadError) (path : String) : m (Except LoadError α) := do
  match ← Host.readText path with
  | .error cause => return .error (.unreadable path cause)
  | .ok s =>
    match read? s with
    | none => return .error malformed
    | some value => return .ok value

variable {m : Type → Type} [Monad m] [Host m]

def Config.load (path : String) : m (Except LoadError Config) :=
  loadText Config.read? (.malformedConfig path) path

def Scenario.load (path : String) : m (Except LoadError Scenario) :=
  loadText Scenario.read? (.malformedScenario path) path

namespace Config

def fileName : String := "hexcast.toml"

/-- The first of some paths where there is anything. -/
def firstThere : List String → m (Option String)
  | [] => return none
  | path :: rest => do if ← Host.hasPath path then return some path else firstThere rest

/-- The home directory, under either of the names it goes by. -/
def homeDirectory : m (Option String) := do
  match ← Host.getEnv? "HOME" with
  | some home => return some home
  | none => Host.getEnv? "USERPROFILE"

/-- The paths to search, in order. -/
def searchPaths (current : String) (home : Option String) : List String :=
  let near := (Path.ancestors current).map (Path.join · fileName)
  let far := home.map fun home =>
    Path.join (Path.join (Path.join home ".config") "hexcast") fileName
  near ++ far.toList

/-- Searches for settings, and answers the path that they were found at. -/
def search : m (Option (String × Config)) := do
  let paths := searchPaths (← Host.currentDirectory) (← homeDirectory)
  match ← firstThere paths with
  | none => return none
  | some path =>
    match ← Config.load path with
    | .error _ => return none
    | .ok config => return some (path, config)

/-- The settings that are found, or else the standard ones. -/
def found : m Config := do
  match ← search with
  | none => return .standard
  | some (_, config) => return config

end Config

end Spellcasting
