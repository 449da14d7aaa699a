import CallProfile.Dataset.Error
import CallProfile.Storage.Output
import CallProfile.Tree.CallTree

/-!
# Why a command failed

A command fails because of its arguments, or because something that it used failed; then the
failure says what the command was doing.  `CommandError.report` is the text for the user: what was
being done, and below it the causes from the outermost one inwards.
-/

namespace CallProfile

/-- What lies at the bottom of the failure of a command. -/
inductive Cause
  /-- No row may be shown. -/
  | zeroLimit
  /-- More rows are asked for than may be shown. -/
  | excessiveLimit
  /-- No level of the tree may be shown. -/
  | zeroDepth
  /-- No function has this text in its name. -/
  | noFunction (part : String)
  /-- A dataset could not be loaded. -/
  | dataset (e : LoadError)
  /-- There is no call tree. -/
  | tree (e : TreeError)
  /-- A document could not be written. -/
  | output (e : OutputError)
deriving DecidableEq

/-- Why a command failed. -/
structure CommandError where
  /-- What the command was doing, where this is worth saying. -/
  context : Option String
  /-- What went wrong. -/
  cause : Cause
deriving DecidableEq

/-- The greatest number of rows that a listing may have. -/
def greatestLimit : Nat := 1000

/-- The sentences for a cause, each the cause of the one before it. -/
def Cause.messages : Cause → List String
  | zeroLimit => ["limit must be greater than 0"]
  | excessiveLimit => [s!"limit is too large (max {greatestLimit})"]
  | zeroDepth => ["depth must be greater than 0"]
  | noFunction part => [s!"No function name contains '{part}'"]
  | dataset e => e.message :: e.cause?.toList
  | tree e => [e.message]
  | output e => e.message :: e.cause?.toList

namespace CommandError

/-- A failure that needs no context. -/
def bare (cause : Cause) : CommandError := ⟨none, cause⟩

/-- A failure while doing something. -/
def during (context : String) (cause : Cause) : CommandError := ⟨some context, cause⟩

/-- The sentences for a failure, from what was being done inwards. -/
def messages (e : CommandError) : List String := e.context.toList ++ e.cause.messages

/-- A sentence whose further lines, if it has any, are indented like the first one. -/
def hang (first further message : String) : String :=
  "\n" ++ first ++ ("\n" ++ further).intercalate (message.splitOn "\n")

/-- The causes of a failure below each other.  Several causes are numbered. -/
def causeText : List String → String
  | [] => ""
  | [message] => "\n\nCaused by:" ++ hang "    " "    " message
  | messages =>
    "\n\nCaused by:" ++ String.join (messages.zipIdx.map fun (message, index) =>
      hang (String.ofList (List.replicate (5 - (toString index).length) ' ') ++
        toString index ++ ": ") "       " message)

/-- The text of a failure for the user. -/
def report (e : CommandError) : String :=
  match e.messages with
  | [] => ""
  | message :: causes => "Error: " ++ message ++ causeText causes ++ "\n"

end CommandError

end CallProfile
