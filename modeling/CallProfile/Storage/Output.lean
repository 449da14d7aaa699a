import CallProfile.Json.Failure
import CallProfile.Json.Symbol
import CallProfile.Json.Writer
import CallProfile.Storage.Disk

/-!
# Documents in files

A document is written to a path that is not empty and not that of a directory; directories that
are missing above it are made first.  Reading a document back gives what a typed reader makes of
its bytes.
-/

namespace CallProfile

open Json

/-- Why a path is none to write to. -/
inductive PathError
  /-- The path has no characters. -/
  | empty
  /-- A directory stands at the path. -/
  | directory (path : String)
  /-- A directory above the path could not be made. -/
  | noParent (parent : String) (fault : Fault)
deriving DecidableEq

/-- The sentence for a path error. -/
def PathError.message : PathError → String
  | empty => "Path is empty"
  | directory path => s!"Path is a directory: {path}"
  | noParent parent fault => s!"Cannot create directory {parent}: {fault.message}"

/-- Why a document could not be written to a file or read from one. -/
inductive OutputError
  /-- The file could not be used. -/
  | file (fault : Fault)
  /-- The text of the file is not that of such a document. -/
  | json (failure : Failure)
  /-- The path is none to write to. -/
  | path (e : PathError)
deriving DecidableEq

namespace OutputError

/-- The sentence for an output error. -/
def message : OutputError → String
  | file fault => s!"Failed to write file: {fault.message}"
  | json failure => s!"Failed to serialize JSON: {failure.message}"
  | path e => s!"Invalid output path: {e.message}"

/-- The sentence of the cause that lies behind an output error, if there is one. -/
def cause? : OutputError → Option String
  | file fault => some fault.message
  | json failure => some failure.message
  | path _ => none

end OutputError

variable {m : Type → Type} [Monad m] [Disk m]

/-- Check that a path is one to write to. -/
def checkPath (path : String) : ExceptT PathError m Unit := do
  if path = "" then throw .empty
  if (← Disk.kind? path) = some .directory then throw (.directory path)

/-- Make the directories above a path that are missing. -/
def makeParent (path : String) : ExceptT PathError m Unit := do
  let parent := Path.parent path
  if parent ≠ "" ∧ (← Disk.kind? parent) = none then
    match ← Disk.makeDirectories parent with
    | .ok _ => return
    | .error fault => throw (.noParent parent fault)

/-- Write a document over several lines. -/
def writeDocument (value : Value) (path : String) : ExceptT OutputError m Unit := do
  let prepare : ExceptT PathError m Unit := do
    checkPath path
    makeParent path
  match ← prepare.run with
  | .error e => throw (.path e)
  | .ok _ =>
    match ← Disk.write path value.pretty.toUTF8 with
    | .error fault => throw (.file fault)
    | .ok _ => return

/-- The symbols of a file.  That a directory cannot be read is noticed by the reader. -/
def readSymbols (path : String) : m (Except Fault (Except Failure (List Symbol))) := do
  match ← Disk.read path with
  | .ok bytes => return .ok (.ok (symbolsOfBytes bytes))
  | .error .isADirectory => return .ok (.error (.unreadable Fault.isADirectory.message))
  | .error fault => return .error fault

/-- Read a document from a file. -/
def readDocument {α : Type} (read : List Symbol → Except Failure α) (path : String) :
    ExceptT OutputError m α := do
  match ← readSymbols path with
  | .error fault => throw (.file fault)
  | .ok (.error failure) => throw (.json failure)
  | .ok (.ok input) =>
    match read input with
    | .error failure => throw (.json failure)
    | .ok a => return a

end CallProfile
