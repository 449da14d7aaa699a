import CallProfile.Number.Binary64
import CallProfile.Text
import Mathlib.Algebra.Group.Nat.Defs
import Mathlib.Data.List.Basic

/-!
# What is printed

Listings are made of lines, lines of columns, and some columns hold a number with a fixed number of
decimal places.  This file says what such texts look like, without the functions that make them.

* `FillsColumn` — a text at the right end of a column, `fillsColumn_alignRight`.
* `ShowsFixed` — a double with some decimal places, **`showsFixed_fixed`**.  The digits of a whole
  number are cut in two by `exists_toDigits_eq_append`, an induction on the number of places.
-/

namespace CallProfile

/-! ## Columns -/

/-- A column shows a text at its right end.  In front of it are blanks, and no more of them than it
takes to make the column as wide as it should be. -/
def FillsColumn (width : Nat) (text column : String) : Prop :=
  ∃ blanks, column.toList = List.replicate blanks ' ' ++ text.toList ∧
    column.length = max width text.length

/-- Aligning a text to the right fills the column with it. -/
lemma fillsColumn_alignRight (width : Nat) (text : String) :
    FillsColumn width text (alignRight width text) := by
  refine ⟨width - text.length, by simp [alignRight], ?_⟩
  simp only [alignRight, String.length_append, String.length_ofList, List.length_replicate]
  omega

/-! ## Decimal places -/

/-- Some digits spell what is left of a number behind its last `places` digits are cut off. -/
structure SpellsRest (places n : Nat) (digits : List Char) : Prop where
  length_eq : digits.length = places
  isDigit : ∀ c ∈ digits, c.isDigit
  value : Nat.ofDigitChars 10 digits 0 = n % 10 ^ places

/-- A text shows a double with some decimal places.  It is the decimal of the whole number `n` with
a point in front of the last digits, and `n` is nearest to the double when this is counted in units
of the last place.  A negative double has a minus. -/
def ShowsFixed (places : Nat) (x : Binary64) (text : String) : Prop :=
  ∃ (n : Nat) (fraction : String),
    text = (if x.negative then "-" else "") ++ toString (n / 10 ^ places) ++ "." ++ fraction ∧
    SpellsRest places n fraction.toList ∧
    2 * (x.numerator * 10 ^ places) ≤ 2 * (x.denominator * n) + x.denominator ∧
    2 * (x.denominator * n) ≤ 2 * (x.numerator * 10 ^ places) + x.denominator

lemma isDigit_digitChar {d : Nat} (hd : d < 10) : (Nat.digitChar d).isDigit := by
  have hall : ∀ d < 10, (Nat.digitChar d).isDigit := by decide
  exact hall d hd

/-- The last digits of a number that has more of them can be cut off. -/
lemma exists_toDigits_eq_append (places n : Nat) (hn : 10 ^ places ≤ n) :
    ∃ digits, Nat.toDigits 10 n = Nat.toDigits 10 (n / 10 ^ places) ++ digits ∧
      SpellsRest places n digits := by
  induction places with
  | zero => exact ⟨[], by simp, rfl, by simp, by simp [Nat.mod_one]⟩
  | succ places ih =>
      have hle : 10 ^ places ≤ n := Nat.le_trans (Nat.pow_le_pow_right (by decide) (by omega)) hn
      obtain ⟨digits, hdigits, hrest⟩ := ih hle
      have hmore : 10 ≤ n / 10 ^ places := by
        rw [Nat.le_div_iff_mul_le (Nat.pow_pos (by decide))]
        rwa [Nat.pow_succ, Nat.mul_comm] at hn
      have hdigit : n / 10 ^ places % 10 < 10 := Nat.mod_lt _ (by decide)
      refine ⟨Nat.digitChar (n / 10 ^ places % 10) :: digits, ?_, ?_, ?_, ?_⟩
      · rw [hdigits, Nat.toDigits_of_base_le (by decide) hmore, Nat.div_div_eq_div_mul,
          ← Nat.pow_succ, List.append_assoc, List.singleton_append]
      · rw [List.length_cons, hrest.length_eq]
      · intro c hc
        rcases List.mem_cons.mp hc with rfl | hc
        · exact isDigit_digitChar hdigit
        · exact hrest.isDigit c hc
      · rw [Nat.ofDigitChars_cons_digitChar_of_lt_ten hdigit, Nat.ofDigitChars_eq_ofDigitChars_zero,
          hrest.length_eq, hrest.value, Nat.pow_succ, Nat.mod_mul, Nat.mul_zero, Nat.zero_add,
          Nat.add_comm]

/-- **A whole number with a point in front of its last digits.**  Zeros are written in front of a
number that has too few of them. -/
lemma exists_fixedPoint_eq {places : Nat} (hplaces : 0 < places) (n : Nat) :
    ∃ fraction : String, fixedPoint places n = toString (n / 10 ^ places) ++ "." ++ fraction ∧
      SpellsRest places n fraction.toList := by
  have hlength := Nat.length_toDigits_le_iff (n := n) (b := 10) (by decide) hplaces
  simp only [fixedPoint, if_neg (Nat.pos_iff_ne_zero.mp hplaces)]
  by_cases hsmall : n < 10 ^ places
  · -- the zeros reach one place in front of the point
    have hshort := hlength.mpr hsmall
    refine ⟨String.ofList (List.replicate (places - (Nat.toDigits 10 n).length) '0' ++
      Nat.toDigits 10 n), ?_, ?_, ?_, ?_⟩
    · have hzeros : places + 1 - (Nat.toDigits 10 n).length =
          places - (Nat.toDigits 10 n).length + 1 := by omega
      have hwhole : (List.replicate (places - (Nat.toDigits 10 n).length + 1) '0' ++
          Nat.toDigits 10 n).length - places = 1 := by
        rw [List.length_append, List.length_replicate]
        omega
      rw [hzeros, hwhole, Nat.div_eq_of_lt hsmall, List.replicate_succ, List.cons_append,
        List.take_succ_cons, List.take_zero, List.drop_succ_cons, List.drop_zero,
        ← String.toList_inj]
      simp
    · rw [String.toList_ofList, List.length_append, List.length_replicate]
      omega
    · intro c hc
      rw [String.toList_ofList, List.mem_append] at hc
      rcases hc with hzero | hdigit
      · rw [List.eq_of_mem_replicate hzero]
        rfl
      · exact Nat.isDigit_of_mem_toDigits (by decide) (by decide) hdigit
    · rw [String.toList_ofList, Nat.ofDigitChars_append, Nat.ofDigitChars_replicate_zero,
        Nat.mul_zero, Nat.ofDigitChars_ten_toDigits, Nat.mod_eq_of_lt hsmall]
  · -- there are enough digits
    have hlong : ¬ (Nat.toDigits 10 n).length ≤ places := fun hle => hsmall (hlength.mp hle)
    obtain ⟨digits, hdigits, hrest⟩ := exists_toDigits_eq_append places n (Nat.le_of_not_lt hsmall)
    refine ⟨String.ofList digits, ?_, by rwa [String.toList_ofList]⟩
    have hzeros : places + 1 - (Nat.toDigits 10 n).length = 0 := by omega
    have hwhole : (Nat.toDigits 10 (n / 10 ^ places) ++ digits).length - places =
        (Nat.toDigits 10 (n / 10 ^ places)).length := by
      rw [List.length_append, hrest.length_eq, Nat.add_sub_cancel]
    rw [hzeros, List.replicate_zero, List.nil_append, hdigits, hwhole, List.take_left,
      List.drop_left, ← String.toList_inj]
    simp

/-- **A double is shown by its text with some decimal places.** -/
lemma showsFixed_fixed {places : Nat} (hplaces : 0 < places) (x : Binary64) :
    ShowsFixed places x (x.fixed places) := by
  have hden : 0 < x.denominator := Nat.pow_pos (by decide)
  obtain ⟨hlow, hhigh⟩ := roundHalfEven_near (x.numerator * 10 ^ places) x.denominator hden
  obtain ⟨fraction, htext, hrest⟩ := exists_fixedPoint_eq hplaces
    (roundHalfEven (x.numerator * 10 ^ places) x.denominator)
  refine ⟨_, fraction, ?_, hrest, hlow, hhigh⟩
  have hfixed : x.fixed places = (if x.negative then "-" else "") ++
      fixedPoint places (roundHalfEven (x.numerator * 10 ^ places) x.denominator) := by
    rw [Binary64.fixed]
    cases x.negative with
    | true => rfl
    | false => exact String.empty_append.symm
  rw [hfixed, htext]
  simp only [String.append_assoc]

/-! ## Lines -/

/-- A text is made of lines that stand one below another, each with a line break at its end. -/
def StacksLines (lines : List String) (text : String) : Prop :=
  text.toList = lines.flatMap fun line => line.toList ++ ['\n']

end CallProfile
