import CallProfile.Json.Value
import CallProfile.Number.Shortest
import CallProfile.Text.Quoted

/-!
# Why a document could not be read

There are four kinds of failure.  The text may end too early, it may break the grammar, the bytes
may be out of reach, or a well-formed document may have the wrong shape; only the last has more to
say, a `Mismatch`, whose `message` names what was found and what was wanted.
-/

namespace CallProfile.Json

/-- A value as messages name it. -/
inductive Found
  | null
  | boolean (b : Bool)
  | number (n : Number)
  | text (s : String)
  | sequence
  | map
deriving DecidableEq

/-- A disagreement between a document and the shape it should have. -/
inductive Mismatch
  /-- A value of the wrong kind. -/
  | wrongKind (found : Found) (wanted : String)
  /-- An integer that does not fit its type. -/
  | outOfRange (n : Int) (wanted : String)
  /-- A record without one of its fields. -/
  | missingField (name : String)
  /-- A record that names a field twice. -/
  | duplicateField (name : String)
  /-- An array that ends before all fields of a record are given. -/
  | tooShort (length : Nat) (wanted : String)
  /-- An array with items beyond the fields of a record. -/
  | tooLong (length : Nat)
  /-- A value that is none of the alternatives of a type. -/
  | noAlternative (type : String)
  /-- A text that is no point in time. -/
  | notATime
deriving DecidableEq

/-- The failure of a reader. -/
inductive Failure
  /-- The text ended inside a value. -/
  | truncated
  /-- The text breaks the grammar. -/
  | malformed
  /-- The bytes could not be read; `reason` says why. -/
  | unreadable (reason : String)
  /-- The document has the wrong shape. -/
  | mismatch (m : Mismatch)
deriving DecidableEq

/-- The words for a value that was found. -/
def Found.describe : Found → String
  | null => "null"
  | boolean b => s!"boolean `{b}`"
  | number (.integer n) => s!"integer `{n}`"
  | number (.double x) => s!"floating point `{String.ofList x.text}`"
  | text s => s!"string {quoted s}"
  | sequence => "sequence"
  | map => "map"

/-- How a value is named when it is not the one that was wanted. -/
def Value.found : Value → Found
  | .null => .null
  | .boolean b => .boolean b
  | .number n => .number n
  | .text s => .text s
  | .array _ => .sequence
  | .object _ => .map

/-- The sentence for a mismatch. -/
def Mismatch.message : Mismatch → String
  | wrongKind found wanted => s!"invalid type: {found.describe}, expected {wanted}"
  | outOfRange n wanted => s!"invalid value: integer `{n}`, expected {wanted}"
  | missingField name => s!"missing field `{name}`"
  | duplicateField name => s!"duplicate field `{name}`"
  | tooShort length wanted => s!"invalid length {length}, expected {wanted}"
  | tooLong length => s!"invalid length {length}, expected fewer elements in array"
  | noAlternative type => s!"data did not match any variant of untagged enum {type}"
  | notATime => "timestamp"

/-- The sentence for a failure. -/
def Failure.message : Failure → String
  | truncated => "unexpected end of text"
  | malformed => "malformed text"
  | unreadable reason => reason
  | mismatch m => m.message

/-- The kind of a failure in one word. -/
def Failure.category : Failure → String
  | truncated => "eof"
  | malformed => "syntax"
  | unreadable _ => "io"
  | mismatch _ => "data"

end CallProfile.Json
