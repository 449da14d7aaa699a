import CallProfile.CommandLine.Invocation
import Std.Time

/-!
# The program

Real files, the real clock and the real arguments.  Everything else is decided elsewhere.
-/

namespace CallProfile.Main

/-- The fault that a system error stands for. -/
def faultOf : IO.Error → Fault
  | .noFileOrDirectory .. => .notFound
  | .noSuchThing .. => .notFound
  | .inappropriateType _ 20 _ => .notADirectory
  | .inappropriateType _ 21 _ => .isADirectory
  | .alreadyExists .. => .alreadyExists
  | .permissionDenied .. => .permissionDenied
  | .invalidArgument _ 36 _ => .nameTooLong
  | e => .other (toString e)

/-- What an action on files gives, or its fault. -/
def attempt {α : Type} (action : IO α) : BaseIO (Except Fault α) := do
  match ← action.toBaseIO with
  | .ok a => return .ok a
  | .error e => return .error (faultOf e)

/-- What stands at a path.  A directory can be opened but not read. -/
def kindOf (path : String) : BaseIO (Option Kind) := do
  let action : IO Unit := do
    let handle ← IO.FS.Handle.mk path .read
    let _ ← handle.read 1
  match ← attempt action with
  | .ok _ => return some .file
  | .error .isADirectory => return some .directory
  | .error .permissionDenied => return some .file
  | .error _ => return none

instance : Disk BaseIO where
  kind? := kindOf
  read path := attempt (IO.FS.readBinFile path)
  makeDirectories path := attempt (IO.FS.createDirAll path)
  write path bytes := attempt (IO.FS.writeBinFile path bytes)

/-- The present time as reports give it. -/
def now : IO String := do
  let nanos := (← Std.Time.Timestamp.now).toNanosecondsSinceUnixEpoch.val
  match Instant.ofUnix? (nanos / 1_000_000_000) (nanos % 1_000_000_000).toNat with
  | some instant => return instant.rfc3339
  | none => return ""

end CallProfile.Main

open CallProfile CallProfile.Main in
/-- Run the program. -/
def main (arguments : List String) : IO UInt32 := do
  let environment ← IO.getEnv "VMSTAT_INPUT"
  let generatedAt ← now
  let invocation := CommandLine.read environment arguments
  let done ← (invocation.run generatedAt : BaseIO CommandLine.Exit)
  for warning in done.warnings do
    IO.eprintln ("[WARN] " ++ warning.message)
  IO.print done.stdout
  IO.eprint done.stderr
  return done.code.toUInt32
