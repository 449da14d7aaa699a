import CallProfile.Json.Reader

/-!
# Reading records

A record has named fields.  It may be written as an object, where the fields come in any order and
unknown members are skipped, or as an array of the field values in their fixed order.  `record`
reads both: a record under construction is a state, and a `RecordField` tells how to fill in one
part of it.  Whether something is missing in the end is for the caller to see in the state; in an
array the first field without a value is reported by its place.

A document that was read as a whole is taken apart by decoders instead, functions from a value to
what it stands for (`Value.asText` and so on).  They report the same mismatches as the readers do.
-/

namespace CallProfile.Json

/-! ## From the text -/

/-- A field of a record whose state under construction is `ρ`. -/
structure RecordField (ρ : Type) where
  /-- The name of the member. -/
  name : String
  /-- Whether the state has this field already. -/
  present : ρ → Bool
  /-- Read the value of the field into the state. -/
  fill : ρ → Reader ρ
  /-- Whether the field may be left out of an array. -/
  dispensable : Bool := false

namespace Reader

variable {α ρ : Type}

/-- The length error of an array that ends before the field at `index`. -/
def tooShort (wanted : String) (index : Nat) : Failure := .mismatch (.tooShort index wanted)

/-- The item at `index` of an array that has to have one there. -/
def element (wanted : String) (index : Nat) (item : Reader α) : Reader α := fun input =>
  match nextItem (index = 0) input with
  | .error e => .error e
  | .ok (.done _) => .error (tooShort wanted index)
  | .ok (.part rest) => item rest

/-- The end of an array that has no more items. -/
def closeArray : Reader Unit := fun input =>
  match skipBlanks input with
  | [] => .error .truncated
  | some ']' :: rest => .ok ((), rest)
  | _ => .error .malformed

/-- The place of the first field that an array cannot do without, counted from `index`. -/
def firstNeeded (index : Nat) : List (RecordField ρ) → Option Nat
  | [] => none
  | field :: fields => if field.dispensable then firstNeeded (index + 1) fields else some index

/-- The fields of a record in the order of an array. -/
def fieldsInOrder (wanted : String) : (index : Nat) → List (RecordField ρ) → ρ → Reader ρ
  | _, [], state => do closeArray; return state
  | index, field :: fields, state => fun input =>
    match nextItem (index = 0) input with
    | .error e => .error e
    | .ok (.done rest) =>
      match firstNeeded index (field :: fields) with
      | some missing => .error (tooShort wanted missing)
      | none => .ok (state, rest)
    | .ok (.part rest) =>
      match field.fill state rest with
      | .error e => .error e
      | .ok (state, rest) => fieldsInOrder wanted (index + 1) fields state rest

/-- The value of the member `name`, from behind the name on. -/
def memberValue (size : Nat) (fields : List (RecordField ρ)) (state : ρ) (name : String) :
    Reader ρ :=
  match fields.find? fun field => field.name = name with
  | none => do colon; skip size; return state
  | some field =>
    if field.present state then mismatch (.duplicateField name)
    else do colon; field.fill state

/-- A member of a record, from behind the quote that opens its name. -/
def fieldMember (size : Nat) (fields : List (RecordField ρ)) (state : ρ) : Reader ρ := do
  let name ← StateT.mk readQuoted
  memberValue size fields state name

/-- A record, called `kind` in messages.  The fields are read inside one more bracket. -/
def record (kind : String) (size depth : Nat) (fields : (depth : Nat) → List (RecordField ρ))
    (state : ρ) : Reader ρ := fun input =>
  match skipBlanks input with
  | some '{' :: rest =>
    opening depth (fun depth => foldObject size (fieldMember size (fields depth)) state) rest
  | some '[' :: rest =>
    opening depth (fun depth =>
      let fields := fields depth
      fieldsInOrder s!"{kind} with {fields.length} elements" 0 fields state) rest
  | input => unwanted kind input

/-- A field that has to be there. -/
def required (name : String) (found : Option α) : Reader α :=
  match found with
  | some a => pure a
  | none => mismatch (.missingField name)

/-! ### Numbers as names -/

/-- Whether the input goes on like a number. -/
def startsNumber : List Symbol → Bool
  | some c :: _ => c = '-' || (digit? c).isSome
  | _ => false

/-- A name that spells an unsigned number, from behind the opening quote up to behind the closing
one.  It is taken as it stands, without escapes. -/
def wordName : Reader UInt64 := fun input =>
  if startsNumber input then
    match unsigned "u64" input with
    | .error e => .error e
    | .ok (n, some '"' :: rest) => .ok (n, rest)
    | .ok _ => .error .malformed
  else .error .malformed

end Reader

/-! ## From a value -/

namespace Value

variable {α : Type}

/-- Report that a value is not of the kind that is wanted. -/
def unwanted (wanted : String) (value : Value) : Except Failure α :=
  .error (.mismatch (.wrongKind value.found wanted))

/-- A text. -/
def asText : Value → Except Failure String
  | .text s => .ok s
  | value => unwanted "a string" value

/-- A truth value. -/
def asBoolean : Value → Except Failure Bool
  | .boolean b => .ok b
  | value => unwanted "a boolean" value

/-- The items of an array. -/
def asItems : Value → Except Failure (List Value)
  | .array items => .ok items
  | value => unwanted "a sequence" value

/-- The members of an object. -/
def asMembers : Value → Except Failure (List (String × Value))
  | .object members => .ok members
  | value => unwanted "a map" value

/-- A value that may be missing, which is written as `null`. -/
def asOptional (decode : Value → Except Failure α) : Value → Except Failure (Option α)
  | .null => .ok none
  | value => (decode value).map some

/-- The decoded member `name` of an object, if it is there. -/
def member (members : List (String × Value)) (name : String)
    (decode : Value → Except Failure α) : Except Failure (Option α) :=
  match members.lookup name with
  | none => .ok none
  | some value => (decode value).map some

/-- A name that spells an unsigned number and nothing else. -/
def wordOfName (name : String) : Except Failure UInt64 :=
  let input := symbols name.toList
  if Reader.startsNumber input then
    match Reader.unsigned "u64" input with
    | .error e => .error e
    | .ok (n, []) => .ok n
    | .ok _ => .error .malformed
  else .error .malformed

end Value

end CallProfile.Json
