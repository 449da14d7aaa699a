import CallProfile.Json.Failure
import CallProfile.Storage.Disk

/-!
# Why a dataset could not be loaded

Either its file could not be opened, or its text is no document of the right shape, or the
document contradicts itself in one of the ways listed in `FormatError`.
-/

namespace CallProfile

/-- The schema of the datasets and reports of this library. -/
def schemaVersion : String := "1.0.0"

/-- A fault in the contents of a document. -/
inductive FormatError
  /-- The document is not an object. -/
  | notAnObject
  /-- There is no list of profiles. -/
  | profilesMissing
  /-- What should be the list of profiles is something else. -/
  | profilesNotAnArray
  /-- The version is none that is understood. -/
  | unsupportedVersion (version : String)
  /-- A frame with a mode has address zero. -/
  | taggedAtZero (profile : Nat)
  /-- In line mode, a call frame stands in the place of a line. -/
  | lineExpected (profile : Nat)
deriving DecidableEq

/-- The sentence for a fault in the contents. -/
def FormatError.message : FormatError → String
  | notAnObject => "Dataset must be a JSON object"
  | profilesMissing => "Missing required field: profiles"
  | profilesNotAnArray => "\"profiles\" must be an array"
  | unsupportedVersion version =>
    s!"Unsupported dataset version: {version} (expected {schemaVersion})"
  | taggedAtZero profile => s!"Profile {profile} has a tagged frame at address 0"
  | lineExpected profile =>
    s!"Profile {profile} has a code address where a line marker is expected"

/-- Why a dataset could not be loaded. -/
inductive LoadError
  /-- Its text or its shape is wrong. -/
  | json (failure : Json.Failure)
  /-- It contradicts itself. -/
  | format (e : FormatError)
  /-- It could not be opened. -/
  | file (fault : Fault)
deriving DecidableEq

namespace LoadError

/-- The sentence for a load error. -/
def message : LoadError → String
  | json failure => s!"JSON deserialization failed: {failure.message}"
  | format e => s!"Invalid dataset format: {e.message}"
  | file fault => s!"Failed to read dataset: {fault.message}"

/-- The sentence of the cause that lies behind a load error, if there is one. -/
def cause? : LoadError → Option String
  | json failure => some failure.message
  | format _ => none
  | file fault => some fault.message

end LoadError

end CallProfile
