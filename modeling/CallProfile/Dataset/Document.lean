import CallProfile.Dataset
import CallProfile.Json.Record
import CallProfile.Time.Timestamp

/-!
# Dataset documents

The shape of a dataset as it is written down, and how it is taken out of a value.  The members of
an object are visited in ascending order of their names, so of several mismatches the one under
the least name is reported, and a field that is missing is noticed last.

An entry of a sample is an integer, or an object with an address and a mode.  Any entry that is
neither is reported by the same mismatch, whatever is wrong with it.
-/

namespace CallProfile

open Json Json.Value

/-- An entry of a sample as it is written. -/
inductive Entry
  /-- A number, positive for an address. -/
  | integer (n : Int)
  /-- An address with its mode. -/
  | tagged (address : Address) (mode : ExecutionMode)
deriving DecidableEq

/-- What an entry says. -/
def Entry.frame : Entry → Frame
  | integer n => .ofInteger n
  | tagged address mode => .code address mode

/-- A sample as it is written. -/
structure SampleDocument where
  entries : List Entry
  metadata : OrderedMap String Value

/-- A dataset as it is written. -/
structure DatasetDocument where
  version : Option String
  lineMode : Bool
  dictionary : Option Dictionary
  metadata : OrderedMap String String
  start : Option Instant
  finish : Option Instant
  samples : List SampleDocument

/-! ### Entries -/

/-- An integer that fits a signed or an unsigned word. -/
def integerOf? : Value → Option Int
  | .number (.integer n) => if Int64.minValue.toInt ≤ n ∧ n < UInt64.size then some n else none
  | _ => none

/-- An address, which is an integer that is not negative. -/
def addressOf? (value : Value) : Option Address := do
  let n ← integerOf? value
  guard (0 ≤ n)
  return UInt64.ofNat n.toNat

/-- A mode, given by its name or by an object that has the name as its only member. -/
def modeOf? : Value → Option ExecutionMode
  | .text name => ExecutionMode.ofName? name
  | .object [(name, .null)] => ExecutionMode.ofName? name
  | _ => none

/-- An address with a mode; a mode that is not given is plain. -/
def taggedOf? (members : List (String × Value)) : Option Entry := do
  let address ← (members.lookup "addr").bind addressOf?
  match members.lookup "kind" with
  | none => return .tagged address .plain
  | some kind => return .tagged address (← modeOf? kind)

/-- One entry of a sample. -/
def Entry.of? (value : Value) : Option Entry :=
  match value with
  | .object members => taggedOf? members
  | value => (integerOf? value).map .integer

/-- One entry of a sample, or the mismatch that stands for all others. -/
def Entry.decode (value : Value) : Except Failure Entry :=
  match Entry.of? value with
  | some entry => .ok entry
  | none => .error (.mismatch (.noAlternative "RawFrame"))

/-! ### Samples -/

/-- The entries of a sample. -/
def decodeEntries (value : Value) : Except Failure (List Entry) := do
  (← asItems value).mapM Entry.decode

/-- Facts of any kind. -/
def decodeFacts (value : Value) : Except Failure (OrderedMap String Value) := do
  return OrderedMap.ofList (← asMembers value)

namespace SampleDocument

/-- A sample from the members of an object. -/
def ofMembers (members : List (String × Value)) : Except Failure SampleDocument := do
  let entries ← member members "frames" decodeEntries
  let metadata ← member members "meta" decodeFacts
  match entries with
  | some entries => return ⟨entries, metadata.getD ∅⟩
  | none => .error (.mismatch (.missingField "frames"))

/-- A sample from the items of an array: the entries, and perhaps the facts. -/
def ofItems : List Value → Except Failure SampleDocument
  | [] => .error (.mismatch (.tooShort 0 "struct RawProfile with 2 elements"))
  | [entries] => do return ⟨← decodeEntries entries, ∅⟩
  | [entries, facts] => do return ⟨← decodeEntries entries, ← decodeFacts facts⟩
  | entries :: facts :: more => do
    let _ ← decodeEntries entries
    let _ ← decodeFacts facts
    .error (.mismatch (.tooLong (more.length + 2)))

/-- A sample. -/
def decode : Value → Except Failure SampleDocument
  | .object members => ofMembers members
  | .array items => ofItems items
  | value => unwanted "struct RawProfile" value

end SampleDocument

/-! ### Datasets -/

/-- A dictionary; the names of its members spell addresses. -/
def decodeDictionary (value : Value) : Except Failure Dictionary := do
  let entries ← (← asMembers value).mapM fun (name, entry) => do
    return (← wordOfName name, ← asText entry)
  return OrderedMap.ofList entries

/-- Facts that are texts. -/
def decodeTexts (value : Value) : Except Failure (OrderedMap String String) := do
  let entries ← (← asMembers value).mapM fun (name, entry) => do return (name, ← asText entry)
  return OrderedMap.ofList entries

/-- A point in time. -/
def decodeInstant (value : Value) : Except Failure Instant :=
  match value with
  | .text s =>
    match Timestamp.parse s.toList with
    | some instant => .ok instant
    | none => .error (.mismatch .notATime)
  | value => unwanted "an RFC 3339 formatted date and time string" value

/-- The samples of a dataset. -/
def decodeSamples (value : Value) : Except Failure (List SampleDocument) := do
  (← asItems value).mapM SampleDocument.decode

/-- A dataset from the members of an object. -/
def DatasetDocument.ofMembers (members : List (String × Value)) :
    Except Failure DatasetDocument := do
  let dictionary ← member members "addresses" (asOptional decodeDictionary)
  let finish ← member members "end_time" (asOptional decodeInstant)
  let metadata ← member members "meta" decodeTexts
  let lineMode ← member members "profile_lines" asBoolean
  let samples ← member members "profiles" decodeSamples
  let start ← member members "start_time" (asOptional decodeInstant)
  let version ← member members "version" (asOptional asText)
  match samples with
  | none => .error (.mismatch (.missingField "profiles"))
  | some samples =>
    return {
      version := version.join
      lineMode := lineMode.getD false
      dictionary := dictionary.join
      metadata := metadata.getD ∅
      start := start.join
      finish := finish.join
      samples }

end CallProfile
