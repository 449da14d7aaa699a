import CallProfile.Json.Failure
import CallProfile.Json.Symbol

/-!
# Quoted texts of a document

`quote` writes a text between double quotes: the quote, the backslash and the control characters
are escaped and everything else stands as it is.  `scan` reads what follows an opening quote, one
symbol at a time; its `Scan` remembers how far into an escape sequence it is.

A text that nobody will look at is only skipped, and skipping is more lenient than reading: a byte
outside any character and half of a surrogate pair are errors only where the text is wanted.
-/

namespace CallProfile.Json

/-! ### Writing -/

/-- A character as it stands between quotes. -/
def escape (c : Char) : List Char :=
  if c = '"' then ['\\', '"']
  else if c = '\\' then ['\\', '\\']
  else if c = '\n' then ['\\', 'n']
  else if c = '\r' then ['\\', 'r']
  else if c = '\t' then ['\\', 't']
  else if c = '\x08' then ['\\', 'b']
  else if c = '\x0c' then ['\\', 'f']
  else if c.toNat < 0x20 then
    ['\\', 'u', '0', '0', Nat.digitChar (c.toNat / 16), Nat.digitChar (c.toNat % 16)]
  else [c]

/-- Write the characters of a text in front of `rest`, with a closing quote between. -/
def quoteTail : List Char → (rest : List Char) → List Char
  | [], rest => '"' :: rest
  | c :: text, rest => escape c ++ quoteTail text rest

/-- Write a quoted text in front of `rest`. -/
def quote (text : List Char) (rest : List Char) : List Char := '"' :: quoteTail text rest

/-! ### Reading -/

/-- The value of a hexadecimal digit. -/
def hexDigit? (c : Char) : Option Nat :=
  if '0' ≤ c ∧ c ≤ '9' then some (c.toNat - '0'.toNat)
  else if 'a' ≤ c ∧ c ≤ 'f' then some (c.toNat - 'a'.toNat + 10)
  else if 'A' ≤ c ∧ c ≤ 'F' then some (c.toNat - 'A'.toNat + 10)
  else none

/-- The character that a one-letter escape stands for. -/
def unescape? : Char → Option Char
  | '"' => some '"'
  | '\\' => some '\\'
  | '/' => some '/'
  | 'b' => some '\x08'
  | 'f' => some '\x0c'
  | 'n' => some '\n'
  | 'r' => some '\r'
  | 't' => some '\t'
  | _ => none

/-- How far a scan has come. -/
inductive Scan
  /-- Between characters. -/
  | plain
  /-- Behind a backslash. -/
  | escaped
  /-- Inside a code unit: `missing + 1` hexadecimal digits are still to come and `value` is the
  number read so far.  `high` is the first half of the pair that the unit has to complete. -/
  | unit (high : Option Nat) (missing value : Nat)
  /-- Behind the first half of a surrogate pair. -/
  | paired (high : Nat)
  /-- Behind the first half of a surrogate pair and a backslash. -/
  | pairedEscape (high : Nat)
deriving DecidableEq

/-- Whether a code unit is the first half of a surrogate pair. -/
def isHighHalf (unit : Nat) : Bool := 0xd800 ≤ unit && unit ≤ 0xdbff

/-- Whether a code unit is the second half of a surrogate pair. -/
def isLowHalf (unit : Nat) : Bool := 0xdc00 ≤ unit && unit ≤ 0xdfff

/-- What to do once a code unit is complete: go on with a character, or wait for the second half
of a pair, or stop because the unit can stand for nothing here. -/
def finishUnit (high : Option Nat) (unit : Nat) : Except Failure (Scan × Option Char) :=
  match high with
  | some first =>
    if isLowHalf unit then
      .ok (.plain, some (Char.ofNat ((first - 0xd800) * 0x400 + (unit - 0xdc00) + 0x10000)))
    else .error .malformed
  | none =>
    if isLowHalf unit then .error .malformed
    else if isHighHalf unit then .ok (.paired unit, none)
    else .ok (.plain, some (Char.ofNat unit))

/-- One step inside an escape sequence: the next state, and a character if one is complete.  The
digits of a code unit are looked at only if the input has enough bytes for all of them. -/
def escapeStep (wanted : Bool) (state : Scan) (c : Char) (input : List Symbol) :
    Except Failure (Scan × Option Char) :=
  match state with
  | .plain => .ok (.plain, some c)
  | .escaped =>
    if c = 'u' then .ok (.unit none 3 0, none)
    else match unescape? c with
      | some c => .ok (.plain, some c)
      | none => .error .malformed
  | .unit high missing value =>
    match hexDigit? c with
    | none => .error (if hasBytes (missing + 1) input then .malformed else .truncated)
    | some digit =>
      let unit := value * 16 + digit
      match missing with
      | missing + 1 => .ok (.unit high missing unit, none)
      | 0 => if wanted then finishUnit high unit else .ok (.plain, none)
  | .paired high => if c = '\\' then .ok (.pairedEscape high, none) else .error .malformed
  | .pairedEscape high => if c = 'u' then .ok (.unit (some high) 3 0, none) else .error .malformed

/-- Scan the rest of a quoted text.  `wanted` tells whether the text is looked at, `text` holds the
characters seen so far, the last one first, and `stray` tells whether a byte outside any character
was among them.  The result is the text and the input behind the closing quote. -/
def scan (wanted : Bool) : Scan → (text : List Char) → (stray : Bool) → List Symbol →
    Except Failure (List Char × List Symbol)
  | _, _, _, [] => .error .truncated
  | .plain, text, _, none :: rest => scan wanted .plain text true rest
  | .plain, text, stray, some c :: rest =>
    if c = '"' then
      if wanted && stray then .error .malformed else .ok (text.reverse, rest)
    else if c = '\\' then scan wanted .escaped text stray rest
    else if c.toNat < 0x20 then .error .malformed
    else scan wanted .plain (c :: text) stray rest
  | .unit _ missing _, _, _, none :: rest =>
    .error (if hasBytes (missing + 1) (none :: rest) then .malformed else .truncated)
  | _, _, _, none :: _ => .error .malformed
  | state, text, stray, some c :: rest =>
    match escapeStep wanted state c (some c :: rest) with
    | .error e => .error e
    | .ok (next, done) => scan wanted next (done.toList ++ text) stray rest

/-- Read the rest of a quoted text. -/
def readQuoted (input : List Symbol) : Except Failure (String × List Symbol) :=
  (scan true .plain [] false input).map fun (text, rest) => (String.ofList text, rest)

/-- Skip the rest of a quoted text. -/
def skipQuoted (input : List Symbol) : Except Failure (Unit × List Symbol) :=
  (scan false .plain [] false input).map fun (_, rest) => ((), rest)

end CallProfile.Json
