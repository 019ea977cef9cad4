import Spellcasting.Host
import Spellcasting.Host.Path

/-! # Files in memory

A host that holds its files in memory. A path is followed name by name from the root or from the
current directory, and every place on the way has to be a directory.
-/

namespace Spellcasting

/-- What lies at a place. -/
inductive FileEntry where
  | directory
  | file (content : String)

/-- Files in memory, by place: the names that lead there from the root, outermost first. Of several
entries for one place the first counts. -/
structure FileStore where
  entries : List (List String × FileEntry)
  current : List String
  environment : List (String × String)

namespace FileStore

/-- What lies at a place; the root is always a directory. -/
def entry? (s : FileStore) : List String → Option FileEntry
  | [] => some .directory
  | place => s.entries.lookup place

def insert (s : FileStore) (place : List String) (entry : FileEntry) : FileStore :=
  { s with entries := (place, entry) :: s.entries }

/-- Adds a directory and the directories around it. -/
def addDirectory (s : FileStore) (place : List String) : FileStore :=
  (List.range place.length).foldl (fun s n => s.insert (place.take (n + 1)) .directory) s

/-- Adds a file and the directories around it. -/
def addFile (s : FileStore) (place : List String) (content : String) : FileStore :=
  (s.addDirectory place.dropLast).insert place (.file content)

/-- The greatest length of a name and of a path in bytes. -/
def nameLimit : Nat := 255
def pathLimit : Nat := 4095

/-- Follows names from a place. -/
def follow (s : FileStore) (place : List String) :
    List String → Except FileError (List String × FileEntry)
  | [] =>
    match s.entry? place with
    | none => .error .missing
    | some entry => .ok (place, entry)
  | name :: rest =>
    match s.entry? place with
    | none => .error .missing
    | some (.file _) => .error .notDirectory
    | some .directory =>
      if name = "" ∨ name = "." then s.follow place rest
      else if name = ".." then s.follow place.dropLast rest
      else if nameLimit < name.utf8ByteSize then .error .nameTooLong
      else s.follow (place ++ [name]) rest

/-- Where a path starts. -/
def start (s : FileStore) (path : String) : List String :=
  if path.startsWith "/" then [] else s.current

/-- Finds what lies at a path. -/
def find (s : FileStore) (path : String) : Except FileError (List String × FileEntry) :=
  if path.contains '\x00' then .error .invalidName
  else if path.isEmpty then .error .missing
  else if pathLimit < path.utf8ByteSize then .error .nameTooLong
  else s.follow (s.start path) (Path.names path)

def read (s : FileStore) (path : String) : Except FileError String :=
  match s.find path with
  | .error e => .error e
  | .ok (_, .directory) => .error .isDirectory
  | .ok (_, .file content) => .ok content

/-- Writes a file. The directory that it lies in has to be there. -/
def write (s : FileStore) (path content : String) : Except FileError FileStore :=
  match s.find path with
  | .ok (_, .directory) => .error .isDirectory
  | .ok (place, .file _) => .ok (s.insert place (.file content))
  | .error .missing =>
    let names := Path.names path
    match s.follow (s.start path) names.dropLast, names.getLast? with
    | .ok (place, .directory), some name => .ok (s.insert (place ++ [name]) (.file content))
    | _, _ => .error .missing
  | .error e => .error e

instance : Host (StateM FileStore) where
  readText path := return (← get).read path
  writeText path content := do
    match (← get).write path content with
    | .error e => return .error e
    | .ok after =>
      set after
      return .ok ()
  hasPath path := return ((← get).find path).isOk
  currentDirectory := return Path.ofReversed (← get).current.reverse
  getEnv? name := return (← get).environment.lookup name

end FileStore

end Spellcasting
