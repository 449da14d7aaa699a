import CallProfile.Json.Failure
import CallProfile.Json.Symbol
import CallProfile.Text

/-!
# Numerals of a document

A numeral is scanned into its parts first (`scanNumeral`), and the parts are given their value
afterwards (`Numeral.value`).  A whole number that fits 64 bits is kept exactly.  Every other
numeral becomes a double in two steps that are each rounded once: the leading digits that fit an
unsigned 64-bit word are read as a whole number, and this is multiplied or divided by the power of
ten that is left.  The result is close to the numeral, though not always the nearest double.
-/

namespace CallProfile.Json

/-- A numeral as it is written. -/
structure Numeral where
  /-- Whether it starts with a minus. -/
  negative : Bool
  /-- The digits before the point. -/
  whole : List Nat
  /-- The digits behind the point, if there is a point. -/
  fraction : Option (List Nat)
  /-- The exponent, if there is one. -/
  exponent : Option Int
deriving DecidableEq

/-! ### Scanning -/

/-- The digits at the start of the input, and the input behind them. -/
def spanDigits : List Symbol → List Nat × List Symbol
  | some c :: rest =>
    match digit? c with
    | some d => let (digits, rest) := spanDigits rest; (d :: digits, rest)
    | none => ([], some c :: rest)
  | input => ([], input)

/-- The failure of an input that should have gone on with a digit. -/
def digitMissing : List Symbol → Failure
  | [] => .truncated
  | _ => .malformed

/-- At least one digit. -/
def scanDigits (input : List Symbol) : Except Failure (List Nat × List Symbol) :=
  match spanDigits input with
  | ([], rest) => .error (digitMissing rest)
  | found => .ok found

/-- The digits before the point: a zero alone, or digits that do not start with zero. -/
def scanWhole (input : List Symbol) : Except Failure (List Nat × List Symbol) :=
  match scanDigits input with
  | .ok (0 :: _ :: _, _) => .error .malformed
  | result => result

/-- The point and the digits behind it, if the input goes on with a point. -/
def scanFraction : List Symbol → Except Failure (Option (List Nat) × List Symbol)
  | some '.' :: rest => (scanDigits rest).map fun (digits, rest) => (some digits, rest)
  | input => .ok (none, input)

/-- The sign in front of an exponent, read as whether it is a minus. -/
def scanSign : List Symbol → Bool × List Symbol
  | some '-' :: rest => (true, rest)
  | some '+' :: rest => (false, rest)
  | input => (false, input)

/-- The exponent, if the input goes on with one. -/
def scanExponent : List Symbol → Except Failure (Option Int × List Symbol)
  | some c :: rest =>
    if c = 'e' ∨ c = 'E' then
      let (negative, rest) := scanSign rest
      (scanDigits rest).map fun (digits, rest) =>
        (some (if negative then -(ofDigits digits : Int) else ofDigits digits), rest)
    else .ok (none, some c :: rest)
  | input => .ok (none, input)

/-- A numeral without its sign. -/
def scanUnsigned (negative : Bool) (input : List Symbol) :
    Except Failure (Numeral × List Symbol) :=
  match scanWhole input with
  | .error e => .error e
  | .ok (whole, rest) =>
    match scanFraction rest with
    | .error e => .error e
    | .ok (fraction, rest) =>
      (scanExponent rest).map fun (exponent, rest) =>
        (⟨negative, whole, fraction, exponent⟩, rest)

/-- The numeral at the start of the input, which starts with a digit or a minus. -/
def scanNumeral : List Symbol → Except Failure (Numeral × List Symbol)
  | some '-' :: rest => scanUnsigned true rest
  | input => scanUnsigned false input

/-! ### The value of a numeral -/

/-- The greatest unsigned 64-bit number. -/
def greatestWord : Nat := UInt64.size - 1

/-- Read digits as a whole number for as long as it fits a word.  The second result is the number
of digits left. -/
def accumulateWhole (significand : Nat) : List Nat → Nat × Nat
  | [] => (significand, 0)
  | d :: digits =>
    if 10 * significand + d ≤ greatestWord then accumulateWhole (10 * significand + d) digits
    else (significand, digits.length + 1)

/-- Append digits behind the point for as long as the number fits a word.  The second result is
the number of digits used. -/
def accumulateFraction (significand : Nat) : List Nat → Nat × Nat
  | [] => (significand, 0)
  | d :: digits =>
    if 10 * significand + d ≤ greatestWord then
      let (n, used) := accumulateFraction (10 * significand + d) digits
      (n, used + 1)
    else (significand, 0)

/-- The greatest power of ten that is used in one step. -/
def greatestPower : Nat := 308

/-- The double for `10^power`, where `power` is not above the greatest one. -/
def powerOfTen (power : Nat) : Option Binary64 := Binary64.ofNat (Nat.pow 10 power)

/-- Divide by the greatest power of ten `steps` times, but not any more once zero is reached. -/
def divideSteps : (steps : Nat) → Binary64 → Option Binary64
  | 0, x => some x
  | steps + 1, x =>
    if x.mantissa = 0 then some x
    else ((powerOfTen greatestPower).bind x.div).bind (divideSteps steps)

/-- Divide by `10^power`, at most by the greatest power of ten at a time. -/
def divideByTens (x : Binary64) (power : Nat) : Option Binary64 :=
  let steps := (power - 1) / greatestPower
  (divideSteps steps x).bind fun x =>
    (powerOfTen (power - greatestPower * steps)).bind x.div

/-- The double for `significand · 10^exponent`; `none` if that is too large. -/
def scaleByTens (significand : Nat) (exponent : Int) : Option Binary64 :=
  match Binary64.ofNat significand with
  | none => none
  | some x =>
    if exponent < 0 then divideByTens x exponent.natAbs
    else if exponent ≤ greatestPower then
      (powerOfTen exponent.toNat).bind x.mul
    else if x.mantissa = 0 then some x
    else none

/-- The number that a numeral stands for; `none` if it is beyond the doubles. -/
def Numeral.value (n : Numeral) : Option Number :=
  let whole := ofDigits n.whole
  let signed := fun x : Binary64 => Number.double (if n.negative then x.neg else x)
  if n.fraction.isNone ∧ n.exponent.isNone ∧ whole ≤ greatestWord then
    if n.negative then
      if 0 < whole ∧ whole ≤ 0x8000_0000_0000_0000 then some (.integer (-(whole : Int)))
      else (Binary64.ofNat whole).map signed
    else some (.integer whole)
  else
    let (significand, left) := accumulateWhole 0 n.whole
    let (significand, used) := accumulateFraction significand (n.fraction.getD [])
    (scaleByTens significand (left - used + n.exponent.getD 0)).map signed

/-- Read the numeral at the start of the input as a number. -/
def readNumber (input : List Symbol) : Except Failure (Number × List Symbol) :=
  match scanNumeral input with
  | .error e => .error e
  | .ok (numeral, rest) =>
    match numeral.value with
    | some number => .ok (number, rest)
    | none => .error .malformed

/-- Skip the numeral at the start of the input.  A numeral that breaks off is malformed here, since
nothing more of it is awaited. -/
def skipNumber (input : List Symbol) : Except Failure (Unit × List Symbol) :=
  match scanNumeral input with
  | .error _ => .error .malformed
  | .ok (_, rest) => .ok ((), rest)

/-! ### Writing -/

/-- Write a whole number in decimal in front of `rest`. -/
def writeNat (n : Nat) (rest : List Char) : List Char := Nat.toDigits 10 n ++ rest

/-- Write an integer in decimal in front of `rest`. -/
def writeInt (n : Int) (rest : List Char) : List Char :=
  if n < 0 then '-' :: writeNat n.natAbs rest else writeNat n.natAbs rest

/-- Write a number in front of `rest`. -/
def writeNumber (n : Number) (rest : List Char) : List Char :=
  match n with
  | .integer n => writeInt n rest
  | .double x => x.text ++ rest

end CallProfile.Json
