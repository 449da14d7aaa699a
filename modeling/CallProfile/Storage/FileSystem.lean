import CallProfile.OrderedMap
import CallProfile.Storage.Disk

/-!
# A file system in memory

Every file and directory has a location, the list of the names that lead to it from the root.  A
path is followed name by name; every name but the last has to be that of a directory.  What a path
may not look like is found out before it is followed (`checkText`), but that a name is too long
only when it is looked for, so that a fault further up the path is found first.
-/

namespace CallProfile

/-- What stands at a location. -/
inductive FileEntry
  | directory
  | file (bytes : ByteArray)

/-- Where a file or directory is. -/
structure Location where
  /-- The number of names.  It stands first because most locations differ in it already. -/
  depth : Nat
  /-- The names that lead here from the root, the last one first. -/
  names : List String
  length_names : names.length = depth
deriving DecidableEq

namespace Location

/-- The directory that everything is in. -/
def root : Location := ⟨0, [], rfl⟩

/-- What has a name in a directory. -/
def below (directory : Location) (name : String) : Location :=
  ⟨directory.depth + 1, name :: directory.names, by simp [directory.length_names]⟩

/-- The directory that a location is in; the root is in itself. -/
def above (location : Location) : Location :=
  ⟨location.depth - 1, location.names.tail, by simp [location.length_names]⟩

/-- Where a name leads from a directory. -/
def step (directory : Location) (name : String) : Location :=
  if name = "." then directory
  else if name = ".." then directory.above
  else directory.below name

end Location

/-- Files and directories, and the directory in which relative paths start. -/
structure FileSystem where
  entries : OrderedMap Location FileEntry := ∅
  workingDirectory : Location := .root

namespace FileSystem

/-- A file system with nothing but an empty directory to work in. -/
def fresh : FileSystem :=
  let work := Location.root.below "work"
  { entries := OrderedMap.ofList [(work, .directory)], workingDirectory := work }

/-- What stands at a location.  The root is always a directory. -/
def entry? (fs : FileSystem) (location : Location) : Option FileEntry :=
  if location = .root then some .directory else fs.entries.get? location

/-- The greatest number of bytes in a name. -/
def greatestName : Nat := 255

/-- The greatest number of bytes in a path. -/
def greatestPath : Nat := 4095

/-- Whether a text can be that of a path at all. -/
def checkText (path : String) : Except Fault Unit :=
  if '\x00' ∈ path.toList then .error .nulInPath
  else if greatestPath < path.utf8ByteSize then .error .nameTooLong
  else .ok ()

/-- Look for a name in a directory. -/
def find (directory : Location) (name : String) : Except Fault Location :=
  if greatestName < name.utf8ByteSize then .error .nameTooLong else .ok (directory.step name)

/-- Whether a location is a directory, and the fault if it is not. -/
def asDirectory (fs : FileSystem) (location : Location) : Except Fault Location :=
  match fs.entry? location with
  | some .directory => .ok location
  | some (.file _) => .error .notADirectory
  | none => .error .notFound

/-- Follow names, each of which has to lead to a directory. -/
def enterDirectories (fs : FileSystem) (names : List String) (location : Location) :
    Except Fault Location :=
  names.foldlM (fun location name => find location name >>= fs.asDirectory) location

/-- The location where a path starts. -/
def startOf (fs : FileSystem) (path : String) : Location :=
  if Path.isAbsolute path then .root else fs.workingDirectory

/-- The directory that a path leads into, and the last name of the path if it has any. -/
def approach (fs : FileSystem) (path : String) : Except Fault (Location × Option String) := do
  checkText path
  if path = "" then throw .notFound
  let names := Path.components path
  let location ← fs.enterDirectories names.dropLast (fs.startOf path)
  return (location, names.getLast?)

/-- The location at the end of a path, whatever stands there. -/
def locate (fs : FileSystem) (path : String) : Except Fault Location := do
  match ← fs.approach path with
  | (location, some name) => find location name
  | (location, none) => return location

/-- What stands at the end of a path.  A slash at the end asks for a directory. -/
def lookup (fs : FileSystem) (path : String) : Except Fault FileEntry :=
  match fs.locate path with
  | .error fault => .error fault
  | .ok location =>
    match fs.entry? location with
    | none => .error .notFound
    | some .directory => .ok .directory
    | some (.file bytes) =>
      if Path.endsInSlash path then .error .notADirectory else .ok (.file bytes)

/-- What kind of thing stands at the end of a path. -/
def kind? (fs : FileSystem) (path : String) : Option Kind :=
  match fs.lookup path with
  | .ok .directory => some .directory
  | .ok (.file _) => some .file
  | .error _ => none

/-- The bytes of the file at the end of a path. -/
def read (fs : FileSystem) (path : String) : Except Fault ByteArray :=
  match fs.lookup path with
  | .ok (.file bytes) => .ok bytes
  | .ok .directory => .error .isADirectory
  | .error fault => .error fault

/-- Put something at a location. -/
def put (fs : FileSystem) (location : Location) (entry : FileEntry) : FileSystem :=
  { fs with entries := fs.entries.insert location entry }

/-- Make or replace the file at the end of a path. -/
def write (fs : FileSystem) (path : String) (bytes : ByteArray) : Except Fault FileSystem :=
  match fs.approach path with
  | .error fault => .error fault
  | .ok (location, none) => (fs.asDirectory location).bind fun _ => .error .isADirectory
  | .ok (location, some name) =>
    if Path.endsInSlash path then .error .isADirectory
    else
      match find location name with
      | .error fault => .error fault
      | .ok location =>
        match fs.entry? location with
        | some .directory => .error .isADirectory
        | _ => .ok (fs.put location (.file bytes))

/-- Make the directories with some names, one in the other, below one that has just been made or
entered.  Names may lead back up to what is there already, but not to a file. -/
def makeBelow (fs : FileSystem) (location : Location) :
    List String → FileSystem × Except Fault Unit
  | [] => (fs, .ok ())
  | name :: rest =>
    match find location name with
    | .error fault => (fs, .error fault)
    | .ok location =>
      match fs.entry? location with
      | some .directory => makeBelow fs location rest
      | some (.file _) => (fs, .error .alreadyExists)
      | none => makeBelow (fs.put location .directory) location rest

/-- Follow names as long as they lead to directories, and make the directories that are missing
from there on.  A file on the way is in the place of a directory to go through, one at the end is
in the place of the directory to make. -/
def makeFrom (fs : FileSystem) (location : Location) :
    List String → FileSystem × Except Fault Unit
  | [] => (fs, .ok ())
  | name :: rest =>
    match find location name with
    | .error fault => (fs, .error fault)
    | .ok location =>
      match fs.entry? location with
      | some .directory => makeFrom fs location rest
      | some (.file _) => (fs, .error (if rest.isEmpty then .alreadyExists else .notADirectory))
      | none => makeBelow (fs.put location .directory) location rest

/-- Make the directory at the end of a path and all those above it that are missing. -/
def makeDirectories (fs : FileSystem) (path : String) : FileSystem × Except Fault Unit :=
  match checkText path with
  | .error fault => (fs, .error fault)
  | .ok _ => fs.makeFrom (fs.startOf path) (Path.components path)

/-- Commands can be run on a file system in memory. -/
instance : Disk (StateM FileSystem) where
  kind? path := fun fs => (fs.kind? path, fs)
  read path := fun fs => (fs.read path, fs)
  makeDirectories path := fun fs => (fs.makeDirectories path).swap
  write path bytes := fun fs =>
    match fs.write path bytes with
    | .ok fs => (.ok (), fs)
    | .error fault => (.error fault, fs)

end FileSystem

end CallProfile
