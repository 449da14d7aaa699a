/-!
# Double precision numbers

Percentages, seconds and the inexact numbers of a document are doubles: whole numbers below
`2^53` times a power of two.  They are kept here as exactly that, so that every operation is
arithmetic on natural numbers: compute the exact quotient, then round it once (`ofRatio`).
There are no infinities; an operation whose result is too large answers `none`.

Every inexact step, in binary or in decimal, comes down to replacing a quotient of two natural
numbers by a whole number near it: the nearest one, and from the middle between two neighbours the
even one.  `roundHalfEven_near` says that the result is never more than half a unit away.  The
columns of percentages and seconds show a double with one or three places (`fixed`), where the exact
value of the double is rounded once more.
-/

namespace CallProfile

/-! ## Rounding a quotient -/

/-- The whole number nearest to `num / den`; a quotient halfway between two goes to the even one. -/
def roundHalfEven (num den : Nat) : Nat :=
  let below := num / den
  let excess := 2 * (num % den)
  if excess < den then below
  else if den < excess then below + 1
  else if below % 2 = 0 then below else below + 1

/-- A quotient is rounded by at most half a unit. -/
theorem roundHalfEven_near (num den : Nat) (h : 0 < den) :
    2 * num ≤ 2 * (den * roundHalfEven num den) + den ∧
      2 * (den * roundHalfEven num den) ≤ 2 * num + den := by
  have hdiv : den * (num / den) + num % den = num := Nat.div_add_mod num den
  have hlt : num % den < den := Nat.mod_lt num h
  have hnext : den * (num / den + 1) = den * (num / den) + den := by rw [Nat.mul_add, Nat.mul_one]
  unfold roundHalfEven
  simp only []
  split
  · omega
  · split
    · rw [hnext]; omega
    · split
      · omega
      · rw [hnext]; omega

/-- A quotient without remainder is kept. -/
theorem roundHalfEven_mul (n den : Nat) (h : 0 < den) : roundHalfEven (den * n) den = n := by
  unfold roundHalfEven
  simp [Nat.mul_div_cancel_left n h, h]

/-! ## Doubles -/

/-- The finite double `±mantissa · 2^exponent`.  A mantissa below `2^52` stands only beside the
least exponent, so a number has one representation, apart from the sign of zero. -/
structure Binary64 where
  /-- Whether the sign is a minus; zero has a sign too. -/
  negative : Bool
  /-- The binary digits, a number below `2^53`. -/
  mantissa : Nat
  /-- The place value of the last binary digit. -/
  exponent : Int
deriving DecidableEq, Inhabited

namespace Binary64

/-- The place value of the last digit of the smallest doubles. -/
def leastExponent : Int := -1074

/-- The place value of the last digit of the largest doubles. -/
def greatestExponent : Int := 971

/-- The zero with a plus sign. -/
def zero : Binary64 := ⟨false, 0, leastExponent⟩

/-- `2^e` where `e` is not negative, and 1 otherwise. -/
def up (e : Int) : Nat := Nat.pow 2 e.toNat

/-- The numerator of the magnitude, over `denominator`. -/
def numerator (x : Binary64) : Nat := x.mantissa * up x.exponent

/-- The denominator of the magnitude: a power of two. -/
def denominator (x : Binary64) : Nat := up (-x.exponent)

/-- The place value that the last binary digit of `num / den` has when 53 digits are kept, but
not less than the least one. -/
def placeOf (num den : Nat) : Int :=
  let guess : Int := (num.log2 : Int) - den.log2
  let top := if num * up (-guess) < den * up guess then guess - 1 else guess
  max (top - 52) leastExponent

/-- The double nearest to `num / den`, ties to the even mantissa; `none` if that is too large. -/
def ofRatio (negative : Bool) (num den : Nat) : Option Binary64 :=
  if num = 0 then some { zero with negative }
  else
    let place := placeOf num den
    let mantissa := roundHalfEven (num * up (-place)) (den * up place)
    let (mantissa, place) :=
      if mantissa = 0x20_0000_0000_0000 then (0x10_0000_0000_0000, place + 1) else (mantissa, place)
    if greatestExponent < place then none else some ⟨negative, mantissa, place⟩

/-- The double nearest to a natural number. -/
def ofNat (n : Nat) : Option Binary64 := ofRatio false n 1

/-- The double nearest to an integer. -/
def ofInt (n : Int) : Option Binary64 := ofRatio (n < 0) n.natAbs 1

/-- The rounded product. -/
def mul (x y : Binary64) : Option Binary64 :=
  ofRatio (x.negative != y.negative) (x.numerator * y.numerator) (x.denominator * y.denominator)

/-- The rounded quotient; the divisor is meant to be different from zero. -/
def div (x y : Binary64) : Option Binary64 :=
  ofRatio (x.negative != y.negative) (x.numerator * y.denominator) (x.denominator * y.numerator)

/-- The number with the other sign. -/
def neg (x : Binary64) : Binary64 := { x with negative := !x.negative }

end Binary64

/-! ## A fixed number of decimal places -/

/-- A number of tenths, hundredths, … as positional text with exactly `places` places. -/
def fixedPoint (places scaled : Nat) : String :=
  let digits := Nat.toDigits 10 scaled
  let padded := List.replicate (places + 1 - digits.length) '0' ++ digits
  let whole := padded.length - places
  if places = 0 then String.ofList padded
  else String.ofList (padded.take whole ++ '.' :: padded.drop whole)

/-- The text of a double with exactly `places` decimal places. -/
def Binary64.fixed (places : Nat) (x : Binary64) : String :=
  let magnitude :=
    fixedPoint places (roundHalfEven (x.numerator * Nat.pow 10 places) x.denominator)
  if x.negative then "-" ++ magnitude else magnitude

end CallProfile
