import CallProfile.Text
import CallProfile.Time.Instant

/-!
# Timestamps

A timestamp is a date, a time of day and the offset of its zone, in the manner of RFC 3339 but
more forgiving: numbers may have fewer digits, a sign allows for years of any length, and blanks
may stand in front of numbers, separators and the zone.  `Timestamp.parse` is a chain of small
steps, each of which takes something off the front of the text.
-/

namespace CallProfile.Timestamp

/-- What takes a value off the front of a text. -/
abbrev Scanner (α : Type) := StateT (List Char) Option α

/-- Whether a character is blank space. -/
def isSpace (c : Char) : Bool :=
  let n := c.toNat
  (0x9 ≤ n && n ≤ 0xd) || n = 0x20 || n = 0x85 || n = 0xa0 || n = 0x1680 ||
    (0x2000 ≤ n && n ≤ 0x200a) || n = 0x2028 || n = 0x2029 || n = 0x202f || n = 0x205f ||
    n = 0x3000

/-- Skip blank space. -/
def spaces : Scanner Unit := fun text => some ((), text.dropWhile isSpace)

/-- One given character. -/
def character (wanted : Char) : Scanner Unit
  | c :: rest => if c = wanted then some ((), rest) else none
  | [] => none

/-- At most `limit` digits, or any number of them, from the front of a text. -/
def digits : (limit : Option Nat) → List Char → List Nat × List Char
  | some 0, text => ([], text)
  | _, [] => ([], [])
  | limit, c :: rest =>
    match digit? c with
    | none => ([], c :: rest)
    | some d =>
      let (more, rest) := digits (limit.map (· - 1)) rest
      (d :: more, rest)

/-- A number of at least one digit and at most `limit`. -/
def natural (limit : Option Nat) : Scanner Nat := fun text =>
  match digits limit text with
  | ([], _) => none
  | (ds, rest) => some (ofDigits ds, rest)

/-- A number of one or two digits, with blanks in front. -/
def twoDigits : Scanner Nat := do
  spaces
  natural (some 2)

/-- A separator, with blanks in front. -/
def separator (c : Char) : Scanner Unit := do
  spaces
  character c

/-- A year of up to four digits, or with a sign and any number of them. -/
def year : Scanner Int := do
  spaces
  fun text =>
    match text with
    | '-' :: rest => (natural none rest).map fun (n, rest) => (-(n : Int), rest)
    | '+' :: rest => (natural none rest).map fun (n, rest) => ((n : Int), rest)
    | text => (natural (some 4) text).map fun (n, rest) => ((n : Int), rest)

/-- A date that exists. -/
def date : Scanner Date := do
  let year ← year
  separator '-'
  let month ← twoDigits
  separator '-'
  let day ← twoDigits
  let date : Date := ⟨year, month, day⟩
  guard (Date.firstYear ≤ year && year ≤ Date.lastYear && date.isValid)
  return date

/-- What stands between the date and the time. -/
def middle : Scanner Unit
  | c :: rest => if c = 'T' ∨ c = 't' ∨ c = ' ' then some ((), rest) else none
  | [] => none

/-- The fraction of a second in nanoseconds, if there is one.  Nine digits count. -/
def fraction : Scanner Nat
  | '.' :: rest =>
    match digits none rest with
    | ([], _) => none
    | (ds, rest) =>
      let kept := ds.take 9
      some (ofDigits kept * Nat.pow 10 (9 - kept.length), rest)
  | text => some (0, text)

/-- The second of the day and the nanosecond of a time of day. -/
def timeOfDay : Scanner (Nat × Nat) := do
  let hour ← twoDigits
  separator ':'
  let minute ← twoDigits
  separator ':'
  let second ← twoDigits
  let nano ← fraction
  guard (hour < 24 && minute < 60 && second ≤ 60)
  if second = 60 then return (3600 * hour + 60 * minute + 59, 1_000_000_000 + nano)
  else return (3600 * hour + 60 * minute + second, nano)

/-- Exactly two digits. -/
def exactlyTwo : Scanner Nat
  | a :: b :: rest => do return (10 * (← digit? a) + (← digit? b), rest)
  | _ => none

/-- The sign of an offset, read as whether it is a minus. -/
def sign : Scanner Bool
  | '+' :: rest => some (false, rest)
  | '-' :: rest => some (true, rest)
  | '−' :: rest => some (true, rest)
  | _ => none

/-- Skip whatever may stand between the hours and the minutes of an offset. -/
def offsetGap : Scanner Unit := fun text =>
  some ((), text.dropWhile fun c => c = ':' || isSpace c)

/-- An offset of less than a day in minutes. -/
def offset : Scanner Int := do
  let negative ← sign
  let hours ← exactlyTwo
  offsetGap
  let minutes ← exactlyTwo
  guard (minutes < 60 && hours < 24)
  let total : Int := 60 * hours + minutes
  return if negative then -total else total

/-- The zone of a timestamp as an offset in minutes. -/
def zone : Scanner Int
  | 'Z' :: rest => some (0, rest)
  | 'z' :: rest => some (0, rest)
  | text =>
    if (text.take 3).map Char.toUpper = ['U', 'T', 'C'] then some (0, text.drop 3)
    else offset text

/-- The point in time of a local date and time at an offset. -/
def resolve (date : Date) (second nano : Nat) (offset : Int) : Option Instant := do
  let instant ← Instant.ofUnix? (date.number * 86400 + second - 60 * offset) nano
  let year := (Date.ofNumber instant.day).year
  guard (Date.firstYear ≤ year && year ≤ Date.lastYear)
  return instant

/-- The point in time that a timestamp names. -/
def parse (text : List Char) : Option Instant := do
  let (date, text) ← date text
  let (_, text) ← middle text
  let ((second, nano), text) ← timeOfDay text
  let (_, text) ← spaces text
  let (offset, text) ← zone text
  guard (text.dropWhile isSpace).isEmpty
  resolve date second nano offset

end CallProfile.Timestamp
