/-!
# Points in time

Days are counted from 1 January 1970 in the Gregorian calendar, extended to all years in both
directions.  A year starts on 1 March for the arithmetic, so that the leap day is its last day
and the months before it have a regular pattern of lengths.

A point in time is a day, a second of that day and a number of nanoseconds.  During a leap second
the second stays at the last one of its minute while the nanoseconds go on beyond `10^9`; the
type says so.  Points are compared by day, second and nanosecond in this order (`precedes`).

The difference of two points of the same day takes a leap second that lies between them into
account, that of points of different days is the difference of the days and that of the times of
day (`nanosBetween`).  So the sign of a difference can disagree with the order right after a leap
second.
-/

namespace CallProfile

/-! ## The calendar -/

/-- A day of the calendar. -/
structure Date where
  year : Int
  month : Nat
  day : Nat
deriving DecidableEq, Inhabited

namespace Date

/-- The years of the calendar that are supported. -/
def firstYear : Int := -262143

/-- The last year that is supported. -/
def lastYear : Int := 262142

/-- Whether a year has a leap day. -/
def isLeap (year : Int) : Bool := year % 4 = 0 && (year % 100 ≠ 0 || year % 400 = 0)

/-- The number of days of a month. -/
def monthLength (year : Int) (month : Nat) : Nat :=
  if month = 2 then (if isLeap year then 29 else 28)
  else if month = 4 ∨ month = 6 ∨ month = 9 ∨ month = 11 then 30
  else 31

/-- Whether a date exists. -/
def isValid (date : Date) : Bool :=
  1 ≤ date.month && date.month ≤ 12 && 1 ≤ date.day &&
    date.day ≤ monthLength date.year date.month

/-- The days of an era of 400 years. -/
def eraDays : Int := 146097

/-- The number of days from the first day of March of year 0 to 1 January 1970. -/
def epoch : Int := 719468

/-- The number of a day, counted from 1 January 1970. -/
def number (date : Date) : Int :=
  let year := if date.month ≤ 2 then date.year - 1 else date.year
  let month : Int := (date.month + 9) % 12
  let dayOfYear := (153 * month + 2) / 5 + date.day - 1
  365 * year + year / 4 - year / 100 + year / 400 + dayOfYear - epoch

/-- The day with a number. -/
def ofNumber (number : Int) : Date :=
  let days := number + epoch
  let era := days / eraDays
  let dayOfEra := days % eraDays
  let yearOfEra := (dayOfEra - dayOfEra / 1460 + dayOfEra / 36524 - dayOfEra / 146096) / 365
  let dayOfYear := dayOfEra - (365 * yearOfEra + yearOfEra / 4 - yearOfEra / 100)
  let month := (5 * dayOfYear + 2) / 153
  let day := dayOfYear - (153 * month + 2) / 5 + 1
  let year := yearOfEra + era * 400
  if month < 10 then ⟨year, (month + 3).toNat, day.toNat⟩
  else ⟨year + 1, (month - 9).toNat, day.toNat⟩

end Date

/-! ## Instants -/

/-- A point in time. -/
structure Instant where
  /-- The day, counted from 1 January 1970. -/
  day : Int
  /-- The second of the day. -/
  second : Nat
  /-- The nanosecond, `10^9` and more during a leap second. -/
  nano : Nat
  second_lt : second < 86400
  nano_lt : nano < 2_000_000_000
  leap_last : 1_000_000_000 ≤ nano → second % 60 = 59
deriving DecidableEq

namespace Instant

/-- Whether a point in time comes before another. -/
def precedes (a b : Instant) : Bool :=
  a.day < b.day || a.day = b.day &&
    (a.second < b.second || a.second = b.second && a.nano < b.nano)

/-- Whether a point in time is in a leap second. -/
def inLeapSecond (a : Instant) : Bool := 1_000_000_000 ≤ a.nano

/-- The nanoseconds from `start` to `finish`, negative if `start` is the later one. -/
def nanosBetween (start finish : Instant) : Int :=
  let seconds := (finish.day - start.day) * 86400 + (finish.second - start.second : Int)
  let leap : Int :=
    if start.second < finish.second ∧ start.inLeapSecond then 1
    else if finish.second < start.second ∧ finish.inLeapSecond then -1
    else 0
  (seconds + leap) * 1_000_000_000 + (finish.nano - start.nano : Int)

/-- The seconds from the start of 1970, not counting leap seconds. -/
def unixSeconds (a : Instant) : Int := a.day * 86400 + a.second

/-- The point in time some seconds after the start of 1970; there is none inside a leap second
unless the second is the last one of a minute. -/
def ofUnix? (seconds : Int) (nano : Nat) : Option Instant :=
  let second := (seconds % 86400).toNat
  if h : second < 86400 ∧ nano < 2_000_000_000 ∧
      (1_000_000_000 ≤ nano → second % 60 = 59) then
    some ⟨seconds / 86400, second, nano, h.1, h.2.1, h.2.2⟩
  else none

/-- A number with zeros in front of it, so that it has at least `width` digits. -/
def padded (width n : Nat) : String :=
  let digits := toString n
  String.ofList (List.replicate (width - digits.length) '0') ++ digits

/-- A year: four digits, or a sign and at least four digits for what does not fit. -/
def yearText (year : Int) : String :=
  if 0 ≤ year ∧ year ≤ 9999 then padded 4 year.toNat
  else (if year < 0 then "-" else "+") ++ padded 4 year.natAbs

/-- A fraction of a second with three, six or nine digits, as many as it needs. -/
def fractionText (nano : Nat) : String :=
  if nano = 0 then ""
  else if nano % 1_000_000 = 0 then "." ++ padded 3 (nano / 1_000_000)
  else if nano % 1_000 = 0 then "." ++ padded 6 (nano / 1_000)
  else "." ++ padded 9 nano

/-- The date of a point in time. -/
def dateText (a : Instant) : String :=
  let date := Date.ofNumber a.day
  yearText date.year ++ "-" ++ padded 2 date.month ++ "-" ++ padded 2 date.day

/-- The time of day of a point in time.  A leap second is second 60. -/
def timeText (a : Instant) : String :=
  let second := a.second % 60 + (if a.inLeapSecond then 1 else 0)
  padded 2 (a.second / 3600) ++ ":" ++ padded 2 (a.second / 60 % 60) ++ ":" ++
    padded 2 second ++ fractionText (a.nano % 1_000_000_000)

/-- The text of a point in time for people, such as `2024-01-01 00:00:02 UTC`. -/
def text (a : Instant) : String := a.dateText ++ " " ++ a.timeText ++ " UTC"

/-- The text of a point in time for programs, such as `2024-01-01T00:00:02+00:00`. -/
def rfc3339 (a : Instant) : String := a.dateText ++ "T" ++ a.timeText ++ "+00:00"

end Instant

end CallProfile
