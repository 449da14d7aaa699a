import CallProfile.Command.Error
import CallProfile.Command.Listing
import CallProfile.Dataset
import CallProfile.Dataset.Loader
import CallProfile.Report.Basic
import CallProfile.Storage.Output
import CallProfile.Tree.Exchange
import CallProfile.Tree.Locator

/-!
# Commands

A command checks its arguments, loads a dataset, and prints a listing or writes a document.
Nothing is written before all that can fail without writing has succeeded.  What a command
printed and warned about is kept also when it fails.
-/

namespace CallProfile

/-! ### Arguments -/

/-- The number of rows of a listing that is not given another one. -/
def usualLimit : Nat := 20

/-- The depth of a listing that is not given another one. -/
def usualDepth : Nat := 12

/-- The dataset that is loaded if none is given. -/
def usualInput : String := "profile.json"

/-- The file that a report is written to if none is given. -/
def usualReport : String := "report.json"

/-- Show the histogram. -/
structure HistogramArguments where
  input : String := usualInput
  limit : Nat := usualLimit

/-- Show the call tree, and perhaps write it to a file. -/
structure TreeArguments where
  input : String := usualInput
  output : Option String := none
  /-- Leave out nodes with a smaller count. -/
  threshold : Option Nat := none
  /-- Keep what lies above the entry point of the program. -/
  raw : Bool := false
  depth : Nat := usualDepth
  locator : Locator := {}

/-- Show the callees of a function. -/
structure FunctionArguments where
  input : String := usualInput
  target : Target := .address 0
  limit : Nat := usualLimit

/-- Write a report. -/
structure ReportArguments where
  input : String := usualInput
  output : String := usualReport
  limit : Nat := usualLimit
  function : Option Target := none

/-- What the program can be asked to do. -/
inductive Command
  | histogram (arguments : HistogramArguments)
  | tree (arguments : TreeArguments)
  | function (arguments : FunctionArguments)
  | report (arguments : ReportArguments)
  | version

/-! ### Running -/

/-- What a command has said so far. -/
structure Transcript where
  /-- The text that was printed. -/
  printed : String := ""
  /-- The warnings, oldest first. -/
  warnings : List Warning := []

/-- The work of a command. -/
abbrev Work (m : Type → Type) (α : Type) := ExceptT CommandError (StateT Transcript m) α

section

variable {m : Type → Type} [Monad m] [Disk m]

/-- Print a text. -/
def say (text : String) : Work m Unit :=
  modifyThe Transcript fun t => { t with printed := t.printed ++ text }

/-- Give warnings. -/
def warn (warnings : List Warning) : Work m Unit :=
  modifyThe Transcript fun t => { t with warnings := t.warnings ++ warnings }

/-- Check the number of rows of a listing. -/
def checkLimit (limit : Nat) : Except CommandError Unit :=
  if limit = 0 then .error (.bare .zeroLimit)
  else if greatestLimit < limit then .error (.bare .excessiveLimit)
  else .ok ()

/-- Load the dataset in a file. -/
def loadFile (path : String) : m (List Warning × Except LoadError Dataset) := do
  match ← readSymbols path with
  | .error fault => return ([], .error (.file fault))
  | .ok (.error failure) => return ([], .error (.json failure))
  | .ok (.ok input) => return Dataset.ofSymbols input

/-- Load the dataset of a command. -/
def load (path : String) : Work m Dataset := do
  let (warnings, result) ← (loadFile path : m _)
  warn warnings
  match result with
  | .ok dataset => return dataset
  | .error e => throw (.during s!"Failed to load dataset {path}" (.dataset e))

/-- Check the path that a command is going to write to. -/
def checkOutput (path : String) : Work m Unit := do
  match ← ((checkPath path).run : m _) with
  | .ok _ => return
  | .error e => throw (.bare (.output (.path e)))

/-- Write the document of a command.  `context` says what it was doing. -/
def save (context : String) (value : Json.Value) (path : String) : Work m Unit := do
  match ← ((writeDocument value path).run : m _) with
  | .ok _ => return
  | .error e => throw (.during context (.output e))

/-- Choose the function of a command. -/
def choose (dataset : Dataset) (target : Target) : Work m Address := do
  warn (dataset.resolveWarnings target)
  match dataset.resolve? target, target with
  | some address, _ => return address
  | none, .name part => throw (.bare (.noFunction part))
  | none, .address address => return address

/-- Show the histogram. -/
def runHistogram (arguments : HistogramArguments) : Work m Unit := do
  checkLimit arguments.limit
  let dataset ← load arguments.input
  warn dataset.histogramWarnings
  say (dataset.histogramListing arguments.limit)

/-- The call tree that a command shows. -/
def treeOf (dataset : Dataset) (arguments : TreeArguments) : Except TreeError CallTree := do
  let tree ← if arguments.raw then dataset.rawTree else dataset.tree arguments.locator
  match arguments.threshold with
  | some threshold => return tree.filter threshold
  | none => return tree

/-- Show the call tree, and perhaps write it to a file. -/
def runTree (arguments : TreeArguments) : Work m Unit := do
  match arguments.output with
  | some path => checkOutput path
  | none => pure ()
  if arguments.depth = 0 then throw (.bare .zeroDepth)
  let dataset ← load arguments.input
  match treeOf dataset arguments with
  | .error e => throw (.during "Failed to build call tree" (.tree e))
  | .ok tree =>
    say (dataset.treeListing tree arguments.depth)
    match arguments.output with
    | some path => save "Failed to write serialized tree" tree.exchange.value path
    | none => return

/-- Show the callees of a function. -/
def runFunction (arguments : FunctionArguments) : Work m Unit := do
  checkLimit arguments.limit
  let dataset ← load arguments.input
  let target ← choose dataset arguments.target
  say (dataset.calleeListing target arguments.limit)

/-- The report about a dataset, with the warnings on the way. -/
def reportOf (dataset : Dataset) (limit : Nat) (function : Option Target)
    (generatedAt : String) : Work m Report := do
  warn dataset.histogramWarnings
  let target ← match function with
    | some target => some <$> choose dataset target
    | none => pure none
  return dataset.report limit target generatedAt

/-- Write a report. -/
def runReport (arguments : ReportArguments) (generatedAt : String) : Work m Unit := do
  checkLimit arguments.limit
  checkOutput arguments.output
  let dataset ← load arguments.input
  let report ← reportOf dataset arguments.limit arguments.function generatedAt
  save "Failed to write report JSON" report.value arguments.output

/-- Do what the program is asked to.  Reports are marked as made at `generatedAt`. -/
def Command.work (generatedAt : String) : Command → Work m Unit
  | histogram arguments => runHistogram arguments
  | tree arguments => runTree arguments
  | function arguments => runFunction arguments
  | report arguments => runReport arguments generatedAt
  | version => say versionListing

/-- Run a command: its result, and what it printed and warned about. -/
def Command.run (command : Command) (generatedAt : String) :
    m (Except CommandError Unit × Transcript) :=
  ((command.work generatedAt).run).run {}

end

end CallProfile
