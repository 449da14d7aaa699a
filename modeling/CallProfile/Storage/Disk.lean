/-!
# Where files live

Commands read and write files through the interface `Disk` only, so what they do to the files can be
studied without any real ones.  What can go wrong when a file or directory is used is a `Fault`,
which has the name of its kind and the sentence with which a system reports it.

A path is a text with slashes between its components.  Empty components and those that are a
single dot say nothing about where the path leads, except for a dot at the very start, which
belongs to the text of the parent (`Path.parent`).
-/

namespace CallProfile

/-! ## Faults -/

/-- Why a file or directory could not be used. -/
inductive Fault
  /-- Nothing stands at the path. -/
  | notFound
  /-- A part of the path that should be a directory is a file. -/
  | notADirectory
  /-- A directory stands where a file is wanted. -/
  | isADirectory
  /-- Something stands where a directory should be made. -/
  | alreadyExists
  /-- Access is not allowed. -/
  | permissionDenied
  /-- A name in the path, or the path itself, has more bytes than there may be. -/
  | nameTooLong
  /-- The path has a NUL in it, which no path can have. -/
  | nulInPath
  /-- Anything else, in the words of the system. -/
  | other (reason : String)
deriving DecidableEq

namespace Fault

/-- The name of the kind of a fault. -/
def kind : Fault → String
  | notFound => "NotFound"
  | notADirectory => "NotADirectory"
  | isADirectory => "IsADirectory"
  | alreadyExists => "AlreadyExists"
  | permissionDenied => "PermissionDenied"
  | nameTooLong => "InvalidFilename"
  | nulInPath => "InvalidInput"
  | other _ => "Other"

/-- The sentence for a fault. -/
def message : Fault → String
  | notFound => "No such file or directory (os error 2)"
  | notADirectory => "Not a directory (os error 20)"
  | isADirectory => "Is a directory (os error 21)"
  | alreadyExists => "File exists (os error 17)"
  | permissionDenied => "Permission denied (os error 13)"
  | nameTooLong => "File name too long (os error 36)"
  | nulInPath => "file name contained an unexpected NUL byte"
  | other reason => reason

end Fault

/-! ## Paths -/

namespace Path

/-- The pieces of a text between slashes. -/
def pieces : List Char → List (List Char)
  | [] => [[]]
  | c :: rest =>
    match pieces rest with
    | [] => [[c]]
    | piece :: more => if c = '/' then [] :: piece :: more else (c :: piece) :: more

/-- The text of pieces with slashes between them. -/
def join : List (List Char) → List Char
  | [] => []
  | [piece] => piece
  | piece :: rest => piece ++ '/' :: join rest

/-- Whether a piece leads nowhere else. -/
def isIdle (piece : List Char) : Bool := piece = [] || piece = ['.']

/-- Whether a path starts at the root of the file system. -/
def isAbsolute (path : String) : Bool := path.toList.head? = some '/'

/-- The components that lead somewhere, or have to be a directory. -/
def components (path : String) : List String :=
  ((pieces path.toList).filter (· ≠ [])).map String.ofList

/-- Whether a path ends in a slash. -/
def endsInSlash (path : String) : Bool := path.toList.getLast? = some '/'

/-- The start of a path that is no component to be taken off: a slash, or a single dot. -/
def splitStart : List Char → List Char × List Char
  | '/' :: rest => (['/'], rest)
  | ['.'] => (['.'], [])
  | '.' :: '/' :: rest => (['.'], '/' :: rest)
  | text => ([], text)

/-- Pieces, the last one first, without idle ones in front. -/
def dropIdle (pieces : List (List Char)) : List (List Char) := pieces.dropWhile isIdle

/-- The path of the directory that a path lies in, as a part of its text.  It is empty for a path
of one component. -/
def parent (path : String) : String :=
  let (start, body) := splitStart path.toList
  match dropIdle (pieces body).reverse with
  | [] => ""
  | _ :: rest => String.ofList (start ++ join (dropIdle rest).reverse)

end Path

/-! ## Disks -/

/-- What stands at a path. -/
inductive Kind
  | file
  | directory
deriving DecidableEq

/-- A place where files live. -/
class Disk (m : Type → Type) where
  /-- What stands at a path, if anything. -/
  kind? : (path : String) → m (Option Kind)
  /-- The bytes of a file.  A directory can be opened but not read. -/
  read : (path : String) → m (Except Fault ByteArray)
  /-- Make a directory and all those above it that are missing. -/
  makeDirectories : (path : String) → m (Except Fault Unit)
  /-- Make a file or replace the bytes of one that is there. -/
  write : (path : String) → ByteArray → m (Except Fault Unit)

/-- Work that can fail uses the files of the work that cannot. -/
instance {ε : Type} {m : Type → Type} [Monad m] [Disk m] : Disk (ExceptT ε m) where
  kind? path := ExceptT.lift (Disk.kind? path)
  read path := ExceptT.lift (Disk.read path)
  makeDirectories path := ExceptT.lift (Disk.makeDirectories path)
  write path bytes := ExceptT.lift (Disk.write path bytes)

/-- Work that keeps a state uses the files of the work that does not. -/
instance {σ : Type} {m : Type → Type} [Monad m] [Disk m] : Disk (StateT σ m) where
  kind? path := StateT.lift (Disk.kind? path)
  read path := StateT.lift (Disk.read path)
  makeDirectories path := StateT.lift (Disk.makeDirectories path)
  write path bytes := StateT.lift (Disk.write path bytes)

end CallProfile
