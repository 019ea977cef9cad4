import Spellcasting.Command

/-! # Command lines

A command line names one command with its options. The option for more detail may stand anywhere and
as often as one likes; it changes no answer. Options of one letter may share a hyphen and count one
after the other, so what stands behind a request for the version or for help is not looked at.
-/

namespace Spellcasting

/-- Why a command line is not understood. -/
inductive UsageError where
  | noCommand
  | unknown (argument : String)
  | repeated (option : String)
  | noValue (option : String)
  | noFile

def UsageError.message : UsageError → String
  | noCommand => "no command was given"
  | unknown argument => "unexpected argument '" ++ argument ++ "' found"
  | repeated option => "the argument '" ++ option ++ "' cannot be used multiple times"
  | noValue option => "a value is required for '" ++ option ++ "' but none was supplied"
  | noFile => "the following required arguments were not provided: <FILE>"

namespace Command

/-- The names of the commands. -/
def names : List String := ["run", "ops", "init", "help"]

/-- What an option without a value asks for. -/
inductive Switch where
  | verbose
  | version
  | help

/-- The command that a switch stands for on its own. -/
def Switch.command? : Switch → Option Command
  | verbose => none
  | version => some .version
  | help => some .help

/-- The switches that are known at a place of the line, by their letters and by their long names. -/
structure Switches where
  letters : List (Char × Switch)
  names : List (String × Switch)

namespace Switches

/-- The switches behind the name of a command. -/
def inside : Switches where
  letters := [('v', .verbose), ('h', .help)]
  names := [("--verbose", .verbose), ("--help", .help)]

/-- The switches in front of the name of a command. -/
def outside : Switches where
  letters := ('V', .version) :: inside.letters
  names := ("--version", .version) :: inside.names

/-- Reads the letters of an argument one by one, up to the first that stands for a command. -/
def readLetters (known : Switches) (argument : String) :
    List Char → Except UsageError (Option Command)
  | [] => .ok none
  | letter :: rest =>
    match known.letters.lookup letter with
    | none => .error (.unknown argument)
    | some switch =>
      match switch.command? with
      | some command => .ok (some command)
      | none => readLetters known argument rest

/-- Reads an argument of letters behind a hyphen, or a long name. -/
def read (known : Switches) (argument : String) : Except UsageError (Option Command) :=
  match known.names.lookup argument with
  | some switch => .ok switch.command?
  | none =>
    match argument.toList with
    | '-' :: letter :: rest => known.readLetters argument (letter :: rest)
    | _ => .error (.unknown argument)

end Switches

/-- Whether an argument is an option by its look. -/
def isOption (argument : String) : Bool := argument.startsWith "-" && argument ≠ "-"

/-- Reads the rest of the line behind a command without arguments. Two hyphens may end it. -/
def ofRest (command : Command) : List String → Except UsageError Command
  | [] | ["--"] => .ok command
  | argument :: rest => do
    match ← Switches.inside.read argument with
    | some command => return command
    | none => ofRest command rest

/-- Reads the rest of the line behind `help`: at most the name of a command. -/
def ofHelpRest : List String → Except UsageError Command
  | [] => .ok help
  | name :: rest =>
    if names.contains name then
      match rest with
      | [] => .ok help
      | next :: _ => .error (.unknown next)
    else .error (.unknown name)

/-- The arguments of `run` as far as they have been read. -/
structure RunArguments where
  file : Option String
  config : Option String

namespace RunArguments

/-- Takes the file to run. -/
def addFile (a : RunArguments) (argument : String) : Except UsageError RunArguments :=
  if a.file.isSome then .error (.unknown argument)
  else if argument.isEmpty then .error (.noValue "<FILE>")
  else .ok { a with file := some argument }

/-- Takes the settings file. -/
def addConfig (a : RunArguments) (value : String) : Except UsageError RunArguments :=
  if a.config.isSome then .error (.repeated "--config <CONFIG>")
  else if value.isEmpty then .error (.noValue "--config <CONFIG>")
  else .ok { a with config := some value }

def finish (a : RunArguments) : Except UsageError Command :=
  match a.file with
  | some file => .ok (run file a.config)
  | none => .error .noFile

end RunArguments

/-- Reads the rest of the line behind `run`; behind two hyphens everything is a file. -/
def ofRunRest (a : RunArguments) : List String → Except UsageError Command
  | [] => a.finish
  | "--" :: rest => do (← rest.foldlM RunArguments.addFile a).finish
  | ["--config"] => .error (.noValue "--config <CONFIG>")
  | "--config" :: value :: rest =>
    if isOption value then .error (.noValue "--config <CONFIG>")
    else do ofRunRest (← a.addConfig value) rest
  | argument :: rest =>
    if argument.startsWith "--config=" then
      do ofRunRest (← a.addConfig (argument.drop 9).toString) rest
    else if isOption argument then do
      match ← Switches.inside.read argument with
      | some command => return command
      | none => ofRunRest a rest
    else do ofRunRest (← a.addFile argument) rest

/-- Reads a command line. -/
def ofLine : List String → Except UsageError Command
  | [] => .error .noCommand
  | "run" :: rest => ofRunRest ⟨none, none⟩ rest
  | "ops" :: rest => ofRest ops rest
  | "init" :: rest => ofRest init rest
  | "help" :: rest => ofHelpRest rest
  | argument :: rest => do
    match ← Switches.outside.read argument with
    | some command => return command
    | none => ofLine rest

end Command

/-- What the program answers to a command line. -/
def answer {m : Type → Type} [Monad m] [Host m] (ids : Nat → EntityId) (line : List String) :
    m Answer :=
  match Command.ofLine line with
  | .error e => return .misuse e.message
  | .ok command => command.perform ids

end Spellcasting
