import CallProfile.Number.Binary64

/-!
# The shortest decimal text of a double

A double stands for all reals that round to it, and any decimal among these names it.  `shortest`
picks the one with the fewest digits, and of those the one nearest to the double.  Only the two
neighbours of the double on each decimal grid need a look: if any point of a grid lies in the
interval, so does one of these two.

The layout of the text is the one that JSON documents and messages of this library use: positional
from `10^-5` up to below `10^16`, with at least one digit after the point, and otherwise with an
exponent that always carries its sign.
-/

namespace CallProfile

/-- The decimal `digits · 10^exponent`. -/
structure Decimal where
  /-- The digits, read as a whole number. -/
  digits : Nat
  /-- The place value of the last digit. -/
  exponent : Int
deriving DecidableEq, Inhabited

namespace Binary64

/-- `10^e` where `e` is not negative, and 1 otherwise. -/
def tens (e : Int) : Nat := Nat.pow 10 e.toNat

/-- The least `k`, looked for below `bound` steps, with `den ≤ num · 10^k`. -/
def leadingZeros (num den : Nat) : (bound : Nat) → Nat
  | 0 => 0
  | bound + 1 => if den ≤ num then 0 else leadingZeros (num * 10) den bound + 1

/-- The place value of the first decimal digit of `num / den`. -/
def decimalPlace (num den : Nat) : Int :=
  if den ≤ num then ((Nat.toDigits 10 (num / den)).length : Int) - 1
  else -(leadingZeros num den 400 : Int)

/-- The reals that round to the magnitude of a double, from `low / den` to `high / den`. -/
structure Interval where
  /-- The numerator of the lower end. -/
  low : Nat
  /-- The numerator of the double itself. -/
  value : Nat
  /-- The numerator of the upper end. -/
  high : Nat
  /-- The common denominator. -/
  den : Nat
  /-- Whether the ends themselves round to the double. -/
  closed : Bool

/-- The gap below a power of two is half as wide as the one above it, so the numerators are
counted in quarters of the last place. -/
def interval (x : Binary64) : Interval :=
  let unit := up x.exponent
  let narrow := x.mantissa = 0x10_0000_0000_0000 ∧ leastExponent < x.exponent
  let gap := if narrow then unit else 2 * unit
  { low := 4 * x.numerator - gap
    value := 4 * x.numerator
    high := 4 * x.numerator + 2 * unit
    den := 4 * x.denominator
    closed := x.mantissa % 2 = 0 }

/-- The point of the decimal grid with place value `place` that names the double, if there is one:
the nearer one of the two neighbours of the double on the grid. -/
def Interval.onGrid (i : Interval) (place : Int) : Option Nat :=
  let scale := tens (-place)
  let step := i.den * tens place
  let inside := fun point : Nat =>
    let lower := i.low * scale
    let upper := i.high * scale
    if i.closed then lower ≤ point * step ∧ point * step ≤ upper
    else lower < point * step ∧ point * step < upper
  let below := i.value * scale / step
  let above := below + 1
  if inside below then
    if inside above then some (roundHalfEven (i.value * scale) step) else some below
  else if inside above then some above
  else none

/-- The first hit among the grids that keep `digits`, `digits + 1`, … digits. -/
def Interval.search (i : Interval) (first : Int) (digits : Nat) : (tries : Nat) → Decimal
  | 0 => ⟨i.value * tens (digits - first) / (i.den * tens (first - digits)), first - digits⟩
  | tries + 1 =>
    match i.onGrid (first - digits) with
    | some point => ⟨point, first - digits⟩
    | none => i.search first (digits + 1) tries

/-- The shortest decimal that reads back as the magnitude of the double.  Seventeen digits always
do. -/
def shortest (x : Binary64) : Decimal :=
  let i := x.interval
  i.search (decimalPlace i.value i.den) 0 17

/-- Digits without the zeros at their end; what was a whole number keeps one digit. -/
def dropZeros (digits : List Char) : List Char :=
  match (digits.reverse.dropWhile (· = '0')).reverse with
  | [] => ['0']
  | kept => kept

/-- The text of digits `d₁d₂…` that stand for `d₁.d₂… · 10^place`. -/
def layout (digits : List Char) (place : Int) : List Char :=
  if -5 ≤ place ∧ place < 16 then
    if place < 0 then
      '0' :: '.' :: List.replicate (-place - 1).toNat '0' ++ digits
    else
      let whole := place.toNat + 1
      let fraction := digits.drop whole
      digits.take whole ++ List.replicate (whole - digits.length) '0' ++ '.' ::
        (if fraction = [] then ['0'] else fraction)
  else
    let mark := if place < 0 then ['e', '-'] else ['e', '+']
    let exponent := Nat.toDigits 10 place.natAbs
    match digits with
    | [] => []
    | [d] => d :: mark ++ exponent
    | d :: rest => d :: '.' :: rest ++ mark ++ exponent

/-- The text of a double: its sign, and the shortest decimal that reads back. -/
def text (x : Binary64) : List Char :=
  let magnitude :=
    if x.mantissa = 0 then ['0', '.', '0']
    else
      let decimal := x.shortest
      let digits := Nat.toDigits 10 decimal.digits
      layout (dropZeros digits) (decimal.exponent + digits.length - 1)
  if x.negative then '-' :: magnitude else magnitude

end Binary64

end CallProfile
