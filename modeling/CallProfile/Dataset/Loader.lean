import CallProfile.Dataset.Document
import CallProfile.Dataset.Error
import CallProfile.Dataset

/-!
# Loading datasets

A value becomes a dataset in three steps.  `validateFormat` looks at the outermost shape and the
version, the document is taken out of the value, and `DatasetDocument.dataset` looks for
contradictions in it: first for frames with a mode at address zero, in all samples, and then, in
line mode, for call frames in the places of lines.  The first fault ends the work.

A run that ended before it started is no fault.  The warning about it is given as soon as the
document is known, so it can come together with an error.
-/

namespace CallProfile

open Json

/-- Whether a version has the major number of the schema. -/
def isSupportedVersion (version : String) : Bool :=
  beforeFirst '.' version.toList = beforeFirst '.' schemaVersion.toList

/-- Look at the outermost shape of a value and at its version. -/
def validateFormat (value : Value) : Except FormatError Unit :=
  match value with
  | .object members =>
    match members.lookup "profiles" with
    | none => .error .profilesMissing
    | some (.array _) =>
      match members.lookup "version" with
      | some (.text version) =>
        if isSupportedVersion version then .ok () else .error (.unsupportedVersion version)
      | _ => .ok ()
    | some _ => .error .profilesNotAnArray
  | _ => .error .notAnObject

/-- Whether an entry has a mode and address zero. -/
def Entry.isTaggedAtZero : Entry → Bool
  | integer _ => false
  | tagged address _ => address = 0

/-- Whether a call frame stands at an odd place, where line mode has a line. -/
def hasMisplacedFrame : List Frame → Bool
  | _ :: second :: rest => !second.isLine || hasMisplacedFrame rest
  | _ => false

namespace SampleDocument

/-- The sample that a document describes. -/
def sample (document : SampleDocument) : Sample :=
  ⟨document.entries.map Entry.frame, document.metadata⟩

end SampleDocument

namespace DatasetDocument

/-- The contradiction in a document that is noticed first. -/
def firstFault (document : DatasetDocument) : Option FormatError :=
  match document.samples.findIdx? fun s => s.entries.any Entry.isTaggedAtZero with
  | some index => some (.taggedAtZero index)
  | none =>
    if document.lineMode then
      (document.samples.findIdx? fun s => hasMisplacedFrame s.sample.frames).map .lineExpected
    else none

/-- The warnings about a document. -/
def warnings (document : DatasetDocument) : List Warning :=
  match document.start, document.finish with
  | some start, some finish =>
    if finish.precedes start then [.endBeforeStart finish start] else []
  | _, _ => []

/-- The dataset that a document describes, if nothing in it contradicts anything else. -/
def dataset (document : DatasetDocument) : Except FormatError Dataset :=
  match document.firstFault with
  | some fault => .error fault
  | none => .ok {
      samples := document.samples.map SampleDocument.sample
      dictionary := document.dictionary
      metadata := document.metadata
      start := document.start
      finish := document.finish
      lineMode := document.lineMode }

end DatasetDocument

namespace Dataset

/-- The document in a value. -/
def documentOf (value : Value) : Except LoadError DatasetDocument :=
  match validateFormat value with
  | .error e => .error (.format e)
  | .ok _ => (DatasetDocument.ofMembers (value.members?.getD [])).mapError .json

/-- Load a dataset from a value.  The warnings are given beside the result. -/
def ofValue (value : Value) : List Warning × Except LoadError Dataset :=
  match documentOf value with
  | .error e => ([], .error e)
  | .ok document => (document.warnings, document.dataset.mapError .format)

/-- Load a dataset from symbols.  The text is read completely before its shape is looked at. -/
def ofSymbols (input : List Symbol) : List Warning × Except LoadError Dataset :=
  match Value.read input with
  | .error failure => ([], .error (.json failure))
  | .ok value => ofValue value

/-- Load a dataset from a text. -/
def ofText (text : String) : List Warning × Except LoadError Dataset :=
  ofSymbols (symbols text.toList)

end Dataset

end CallProfile
