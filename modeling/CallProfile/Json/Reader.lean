import CallProfile.Json.Numeral
import CallProfile.Json.Quote

/-!
# Reading documents

A reader takes the symbols in front of it and answers with a value and the symbols that are left,
or with the first problem in the order of the text.  The combinators here know the grammar, and a
typed reader is put together from them: `string`, `unsigned`, `signed` for scalars, `foldArray`
and `foldObject` for containers, `record` for what may be written as an object or as an array of
its fields.

Two numbers bound a reader.  `depth` is the number of brackets that may still be opened; one more
is a malformed text.  `size` bounds the number of items of one container; since an item has at
least one symbol, the size of the whole text is always enough, so this bound is never felt.
-/

namespace CallProfile.Json

/-- What reads a value off the front of the input. -/
abbrev Reader (α : Type) := StateT (List Symbol) (Except Failure) α

/-- The number of brackets that a document may have open at the same time. -/
def depthLimit : Nat := 127

/-- Whether a symbol separates tokens without a meaning of its own. -/
def isBlank : Symbol → Bool
  | some c => c = ' ' || c = '\n' || c = '\t' || c = '\r'
  | none => false

/-- The input behind leading blanks. -/
def skipBlanks : List Symbol → List Symbol
  | [] => []
  | s :: rest => if isBlank s then skipBlanks rest else s :: rest

namespace Reader

variable {α ρ : Type}

/-- Stop with a failure. -/
def fail (e : Failure) : Reader α := fun _ => .error e

/-- Stop because the document has the wrong shape. -/
def mismatch (m : Mismatch) : Reader α := fail (.mismatch m)

/-! ### Words and foreign values -/

/-- The rest of a word whose first letter has been seen. -/
def word (letters : List Char) : Reader Unit := fun input =>
  match letters, input with
  | [], input => .ok ((), input)
  | _ :: _, [] => .error .truncated
  | c :: letters, s :: rest => if s = some c then word letters rest else .error .malformed

/-- Read enough of the next value to say what it is.  A scalar is read to its end, of a container
only the bracket is looked at. -/
def foreign (input : List Symbol) : Except Failure Found :=
  match input with
  | [] => .error .truncated
  | some 'n' :: rest => (word ['u', 'l', 'l'] rest).map fun _ => .null
  | some 't' :: rest => (word ['r', 'u', 'e'] rest).map fun _ => .boolean true
  | some 'f' :: rest => (word ['a', 'l', 's', 'e'] rest).map fun _ => .boolean false
  | some '"' :: rest => (readQuoted rest).map fun (s, _) => .text s
  | some '[' :: _ => .ok .sequence
  | some '{' :: _ => .ok .map
  | some c :: rest =>
    if c = '-' ∨ (digit? c).isSome then
      (readNumber (some c :: rest)).map fun (n, _) => .number n
    else .error .malformed
  | none :: _ => .error .malformed

/-- Stop because the next value is not of the kind that is wanted. -/
def unwanted (wanted : String) : Reader α := fun input =>
  match foreign input with
  | .error e => .error e
  | .ok found => .error (.mismatch (.wrongKind found wanted))

/-! ### Scalars -/

/-- A text. -/
def string : Reader String := fun input =>
  match skipBlanks input with
  | some '"' :: rest => readQuoted rest
  | input => unwanted "a string" input

/-- A whole number of a type with the least and greatest values `low` and `high`. -/
def integer (type : String) (low high : Int) : Reader Int := fun input =>
  let input := skipBlanks input
  match input with
  | some c :: _ =>
    if c = '-' ∨ (digit? c).isSome then
      match readNumber input with
      | .error e => .error e
      | .ok (.double x, _) => .error (.mismatch (.wrongKind (.number (.double x)) type))
      | .ok (.integer n, rest) =>
        if low ≤ n ∧ n ≤ high then .ok (n, rest) else .error (.mismatch (.outOfRange n type))
    else unwanted type input
  | _ => unwanted type input

/-- A number of an unsigned type with 64 bits. -/
def unsigned (type : String) : Reader UInt64 := do
  let n ← integer type 0 (UInt64.size - 1)
  return UInt64.ofNat n.toNat

/-- A number of a signed type with 64 bits. -/
def signed (type : String) : Reader Int64 := do
  let n ← integer type Int64.minValue.toInt Int64.maxValue.toInt
  return Int64.ofInt n

/-! ### Containers -/

/-- What comes next in a container. -/
inductive Next
  /-- Its end; the input goes on behind the closing bracket. -/
  | done (rest : List Symbol)
  /-- A further part, which starts with `rest`. -/
  | part (rest : List Symbol)

/-- What comes next in an array; an item starts with its first symbol. -/
def nextItem (first : Bool) (input : List Symbol) : Except Failure Next :=
  match skipBlanks input with
  | [] => .error .truncated
  | some ']' :: rest => .ok (.done rest)
  | some ',' :: rest =>
    if first then .error .malformed
    else match skipBlanks rest with
      | [] => .error .truncated
      | some ']' :: _ => .error .malformed
      | rest => .ok (.part rest)
  | rest => if first then .ok (.part rest) else .error .malformed

/-- What comes next in an object; a member starts behind the quote that opens its name. -/
def nextName (first : Bool) (input : List Symbol) : Except Failure Next :=
  match skipBlanks input with
  | [] => .error .truncated
  | some '}' :: rest => .ok (.done rest)
  | some ',' :: rest =>
    if first then .error .malformed
    else match skipBlanks rest with
      | [] => .error .truncated
      | some '"' :: rest => .ok (.part rest)
      | _ => .error .malformed
  | some '"' :: rest => if first then .ok (.part rest) else .error .malformed
  | _ => .error .malformed

/-- Read parts of a container until `next` finds its end. -/
def foldParts (next : Bool → List Symbol → Except Failure Next) (part : ρ → Reader ρ) :
    (size : Nat) → (first : Bool) → ρ → Reader ρ
  | 0, _, _ => fail .truncated
  | size + 1, first, state => fun input =>
    match next first input with
    | .error e => .error e
    | .ok (.done rest) => .ok (state, rest)
    | .ok (.part rest) =>
      match part state rest with
      | .error e => .error e
      | .ok (state, rest) => foldParts next part size false state rest

/-- The items of an array, from behind the opening bracket. -/
def foldArray (size : Nat) (item : ρ → Reader ρ) (state : ρ) : Reader ρ :=
  foldParts nextItem item (size + 1) true state

/-- The members of an object, from behind the opening brace.  `member` starts behind the quote
that opens a name. -/
def foldObject (size : Nat) (member : ρ → Reader ρ) (state : ρ) : Reader ρ :=
  foldParts nextName member (size + 1) true state

/-- The colon between a name and its value. -/
def colon : Reader Unit := fun input =>
  match skipBlanks input with
  | [] => .error .truncated
  | some ':' :: rest => .ok ((), rest)
  | _ => .error .malformed

/-- Open a bracket, if one may still be opened. -/
def opening (depth : Nat) (inner : Nat → Reader α) : Reader α :=
  match depth with
  | 0 => fail .malformed
  | depth + 1 => inner depth

/-- The items of an array as a list. -/
def list (size depth : Nat) (item : Nat → Reader α) : Reader (List α) := fun input =>
  match skipBlanks input with
  | some '[' :: rest =>
    (do let items ← opening depth fun depth =>
          foldArray size (fun items => do return (← item depth) :: items) []
        return items.reverse : Reader (List α)) rest
  | input => unwanted "a sequence" input

/-- The members of an object, folded in the order of the text. -/
def map (size depth : Nat) (member : ρ → Reader ρ) (state : ρ) : Reader ρ := fun input =>
  match skipBlanks input with
  | some '{' :: rest => opening depth (fun _ => foldObject size member state) rest
  | input => unwanted "a map" input

/-- A value that may be missing, which is written as `null`. -/
def optional (reader : Reader α) : Reader (Option α) := fun input =>
  match skipBlanks input with
  | some 'n' :: rest => (word ['u', 'l', 'l'] rest).map fun (_, rest) => (none, rest)
  | input => (do return some (← reader) : Reader (Option α)) input

/-! ### Values that nobody looks at -/

/-- Skip the name of a member, the colon and the value. -/
def skipMember (skip : Reader Unit) : Reader Unit := do
  StateT.mk skipQuoted
  colon
  skip

/-- Skip a value with at most `depth` brackets open at the same time. -/
def skipNested (size depth : Nat) : Reader Unit := fun input =>
  match skipBlanks input with
  | [] => .error .truncated
  | some 'n' :: rest => word ['u', 'l', 'l'] rest
  | some 't' :: rest => word ['r', 'u', 'e'] rest
  | some 'f' :: rest => word ['a', 'l', 's', 'e'] rest
  | some '"' :: rest => skipQuoted rest
  | some '[' :: rest =>
    match depth with
    | 0 => .error .malformed
    | depth + 1 => foldArray size (fun _ => skipNested size depth) () rest
  | some '{' :: rest =>
    match depth with
    | 0 => .error .malformed
    | depth + 1 => foldObject size (fun _ => skipMember (skipNested size depth)) () rest
  | some c :: rest =>
    if c = '-' ∨ (digit? c).isSome then skipNumber (some c :: rest) else .error .malformed
  | none :: _ => .error .malformed

/-- Skip a value.  Its depth is not limited: there are no more brackets than symbols. -/
def skip (size : Nat) : Reader Unit := skipNested size size

/-! ### Any value -/

/-- Read a value; `arrange` is given the members of every object in the order of the text. -/
def valueWith (arrange : List (String × Value) → List (String × Value)) (size depth : Nat) :
    Reader Value := fun input =>
  match skipBlanks input with
  | [] => .error .truncated
  | some 'n' :: rest => (word ['u', 'l', 'l'] rest).map fun (_, rest) => (.null, rest)
  | some 't' :: rest => (word ['r', 'u', 'e'] rest).map fun (_, rest) => (.boolean true, rest)
  | some 'f' :: rest =>
    (word ['a', 'l', 's', 'e'] rest).map fun (_, rest) => (.boolean false, rest)
  | some '"' :: rest => (readQuoted rest).map fun (s, rest) => (.text s, rest)
  | some '[' :: rest =>
    match depth with
    | 0 => .error .malformed
    | depth + 1 =>
      (foldArray size (fun items => do return (← valueWith arrange size depth) :: items) [] rest).map
        fun (items, rest) => (.array items.reverse, rest)
  | some '{' :: rest =>
    match depth with
    | 0 => .error .malformed
    | depth + 1 =>
      let member := fun members => do
        let name ← StateT.mk readQuoted
        colon
        return (name, ← valueWith arrange size depth) :: members
      (foldObject size member [] rest).map
        fun (members, rest) => (.object (arrange members.reverse), rest)
  | some c :: rest =>
    if c = '-' ∨ (digit? c).isSome then
      (readNumber (some c :: rest)).map fun (n, rest) => (.number n, rest)
    else .error .malformed
  | none :: _ => .error .malformed

/-- Read a value as a document keeps it, with the members of objects in ascending order. -/
def value (size depth : Nat) : Reader Value := valueWith sortMembers size depth

/-! ### Whole documents -/

/-- Read a whole text with a reader that is given the size of the text.  Blanks may follow. -/
def run (reader : (size : Nat) → Reader α) (input : List Symbol) : Except Failure α :=
  match reader input.length input with
  | .error e => .error e
  | .ok (a, rest) => if (skipBlanks rest).isEmpty then .ok a else .error .malformed

end Reader

/-- Read a text as a document. -/
def Value.read (input : List Symbol) : Except Failure Value :=
  Reader.run (fun size => Reader.value size depthLimit) input

end CallProfile.Json
