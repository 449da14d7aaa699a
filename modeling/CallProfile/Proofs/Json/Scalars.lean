import CallProfile.Proofs.Json.Spellings
import Mathlib.Tactic.Linarith

/-!
# Reading back what was written: texts and numbers

The writer puts a scalar in front of whatever comes behind it, and the readers take it off again.
This is stated for an arbitrary rest, so that it can be used in the middle of a document.

* **`readQuoted_quoteTail`** — every text is read back, whatever characters are in it.
* **`unsigned_writeNat`**, **`signed_writeInt`** — every number that fits a word is read back, if
  the rest does not go on like a numeral (`EndsNumeral`).
* **`eq_toDigits_of_unsigned`** — and nothing else is read as such a number.
-/

namespace CallProfile.Json

/-! ## Readers in sequence

A reader that is made of others is taken apart with these lemmas, from the front on.
-/

namespace Reader

variable {α β : Type} {r : Reader α} {f : α → Reader β} {input rest : List Symbol}

lemma bind_of_ok {a : α} (h : r input = .ok (a, rest)) : (r >>= f) input = f a rest := by
  change (r input >>= fun found => f found.1 found.2) = _
  rw [h]
  rfl

lemma bind_of_error {e : Failure} (h : r input = .error e) : (r >>= f) input = .error e := by
  change (r input >>= fun found => f found.1 found.2) = _
  rw [h]
  rfl

/-- What comes behind a first part depends only on what the first part gives. -/
lemma bind_congr {r' : Reader α} {other : List Symbol} (h : r input = r' other) :
    (r >>= f) input = (r' >>= f) other := by
  change (r input >>= fun found => f found.1 found.2) = _
  rw [h]
  rfl

/-- A sequence that succeeds has a first part that does. -/
lemma exists_of_bind_ok {found : β × List Symbol} (h : (r >>= f) input = .ok found) :
    ∃ a rest, r input = .ok (a, rest) ∧ f a rest = .ok found := by
  cases hfirst : r input with
  | error e =>
      rw [bind_of_error hfirst] at h
      cases h
  | ok first =>
      rw [bind_of_ok hfirst] at h
      exact ⟨first.1, first.2, rfl, h⟩

lemma unwanted_ne_ok {wanted : String} {input : List Symbol} {found : α × List Symbol} :
    unwanted wanted input ≠ .ok found := by
  intro h
  rw [unwanted] at h
  split at h <;> cases h

end Reader

/-! ## Texts -/

/-- **A quoted text is read back**, whatever comes behind it. -/
theorem readQuoted_quoteTail (text : String) (rest : List Char) :
    readQuoted (symbols (quoteTail text.toList rest)) = .ok (text, symbols rest) := by
  rw [readQuoted_of_quotedText (quotedText_quoteTail text.toList rest), String.ofList_toList]

lemma string_quote (text : String) (rest : List Char) :
    Reader.string (symbols (quote text.toList rest)) = .ok (text, symbols rest) := by
  rw [quote, symbols_cons, Reader.string]
  exact readQuoted_quoteTail text rest

/-! ## Numbers -/

/-- A text does not go on with what could belong to a numeral before it. -/
def EndsNumeral (rest : List Char) : Prop :=
  ∀ c ∈ rest.head?, digit? c = none ∧ c ≠ '.' ∧ c ≠ 'e' ∧ c ≠ 'E'

/-- The decimal digits of a number, the first one having the greatest weight. -/
def decimal (n : Nat) : List Nat := (Nat.toDigits 10 n).map fun c => c.toNat - '0'.toNat

/-- A number is made of its decimal digits again. -/
lemma ofDigits_decimal (n : Nat) : ofDigits (decimal n) = n := by
  have h := Nat.ofDigitChars_ten_toDigits (n := n)
  rw [Nat.ofDigitChars_eq_foldl] at h
  rw [ofDigits, decimal, List.foldl_map]
  exact h

lemma decimal_ne_nil (n : Nat) : decimal n ≠ [] := by
  rw [decimal, ne_eq, List.map_eq_nil_iff]
  exact Nat.toDigits_ne_nil

/-- Only zero is written with a zero in front. -/
lemma head?_decimal_ne_zero (n : Nat) (hn : 0 < n) : (decimal n).head? ≠ some 0 := by
  induction n using Nat.strongRecOn with
  | ind n ih =>
      by_cases hsmall : n < 10
      · rw [decimal, Nat.toDigits_of_lt_base hsmall]
        have hdigit := Nat.toNat_digitChar_sub_48_of_lt_ten hsmall
        simp only [List.map_cons, List.map_nil, List.head?_cons, ne_eq, Option.some.injEq]
        change ¬ n.digitChar.toNat - 48 = 0
        omega
      · have hfront := ih (n / 10) (by omega) (by omega)
        have hsplit : decimal n = decimal (n / 10) ++
            [(n % 10).digitChar.toNat - '0'.toNat] := by
          rw [decimal, Nat.toDigits_of_base_le (by omega) (by omega), List.map_append]
          rfl
        obtain ⟨digit, digits, hcons⟩ := List.exists_cons_of_ne_nil (decimal_ne_nil (n / 10))
        rw [hcons] at hfront
        rwa [hsplit, hcons]

lemma digit?_of_isDigit {c : Char} (h : c.isDigit) : digit? c = some (c.toNat - '0'.toNat) := by
  rw [digit?, if_pos]
  simpa [Char.isDigit, Char.le_def] using h

lemma isBlank_of_isDigit {c : Char} (h : c.isDigit) : isBlank (some c) = false := by
  simp only [isBlank, Bool.or_eq_false_iff, decide_eq_false_iff_not]
  refine ⟨⟨⟨?_, ?_⟩, ?_⟩, ?_⟩ <;> (rintro rfl; exact absurd h (by decide))

/-- The digits of a numeral are taken up to its end. -/
lemma spanDigits_digits {rest : List Char} (hrest : EndsNumeral rest) (digits : List Char)
    (h : ∀ c ∈ digits, c.isDigit) :
    spanDigits (symbols (digits ++ rest)) =
      (digits.map fun c => c.toNat - '0'.toNat, symbols rest) := by
  induction digits with
  | nil =>
      cases rest with
      | nil => rfl
      | cons c rest =>
          have hc := (hrest c rfl).1
          simp [spanDigits, hc]
  | cons c digits ih =>
      have hc := digit?_of_isDigit (h c List.mem_cons_self)
      have htail := ih fun d hd => h d (List.mem_cons_of_mem _ hd)
      rw [List.cons_append, symbols_cons, spanDigits, hc]
      simp only [htail, List.map_cons]

/-- The whole part of a written number is its decimal digits. -/
lemma scanWhole_writeNat (n : Nat) {rest : List Char} (hrest : EndsNumeral rest) :
    scanWhole (symbols (writeNat n rest)) = .ok (decimal n, symbols rest) := by
  have hspan : spanDigits (symbols (writeNat n rest)) = (decimal n, symbols rest) :=
    spanDigits_digits hrest _ fun _ hc => Nat.isDigit_of_mem_toDigits (by omega) (by omega) hc
  have hdigits : scanDigits (symbols (writeNat n rest)) = .ok (decimal n, symbols rest) := by
    rw [scanDigits, hspan]
    cases hdecimal : decimal n with
    | nil => exact absurd hdecimal (decimal_ne_nil n)
    | cons d digits => rfl
  rw [scanWhole, hdigits]
  split
  · next digit digits _ hleading =>
      have hdecimal : decimal n = 0 :: digit :: digits := (Prod.mk.inj (Except.ok.inj hleading)).1
      rcases Nat.eq_zero_or_pos n with rfl | hpos
      · have hzero : decimal 0 = [0] := by decide
        rw [hzero] at hdecimal
        cases hdecimal
      · exact absurd (by rw [hdecimal]; rfl) (head?_decimal_ne_zero n hpos)
  · rfl

/-- What is left behind a numeral starts neither a fraction nor an exponent. -/
lemma scan_endsNumeral {rest : List Char} (hrest : EndsNumeral rest) :
    scanFraction (symbols rest) = .ok (none, symbols rest) ∧
      scanExponent (symbols rest) = .ok (none, symbols rest) := by
  cases rest with
  | nil => exact ⟨rfl, rfl⟩
  | cons c rest =>
      obtain ⟨-, hpoint, hlower, hupper⟩ := hrest c rfl
      exact ⟨by simp [scanFraction, hpoint], by simp [scanExponent, hlower, hupper]⟩

lemma exists_writeNat_eq_cons (n : Nat) (rest : List Char) :
    ∃ c text, writeNat n rest = c :: text ∧ c.isDigit := by
  obtain ⟨c, digits, hdigits⟩ := List.exists_cons_of_ne_nil (Nat.toDigits_ne_nil (n := n) (b := 10))
  refine ⟨c, digits ++ rest, by rw [writeNat, hdigits]; rfl, ?_⟩
  exact Nat.isDigit_of_mem_toDigits (n := n) (b := 10) (by omega) (by omega)
    (hdigits ▸ List.mem_cons_self)

lemma startsNumber_writeNat (n : Nat) (rest : List Char) :
    Reader.startsNumber (symbols (writeNat n rest)) = true := by
  obtain ⟨c, text, hwrite, hdigit⟩ := exists_writeNat_eq_cons n rest
  rw [hwrite, symbols_cons, Reader.startsNumber, digit?_of_isDigit hdigit]
  simp

/-- The digits of a whole number are read as its numeral, whatever the sign before them. -/
lemma scanUnsigned_writeNat (negative : Bool) (n : Nat) {rest : List Char}
    (hrest : EndsNumeral rest) :
    scanUnsigned negative (symbols (writeNat n rest)) =
      .ok (⟨negative, decimal n, none, none⟩, symbols rest) := by
  obtain ⟨hfraction, hexponent⟩ := scan_endsNumeral hrest
  rw [scanUnsigned, scanWhole_writeNat n hrest]
  simp only [hfraction, hexponent]
  rfl

lemma writeInt_natCast (n : Nat) (rest : List Char) : writeInt n rest = writeNat n rest := by
  rw [writeInt, if_neg (by omega), Int.natAbs_natCast]

lemma exists_writeInt_eq_cons (n : Int) (rest : List Char) :
    ∃ c text, writeInt n rest = c :: text ∧ (c = '-' ∨ c.isDigit) := by
  rw [writeInt]
  split_ifs
  · exact ⟨'-', _, rfl, .inl rfl⟩
  · obtain ⟨c, text, hwrite, hdigit⟩ := exists_writeNat_eq_cons n.natAbs rest
    exact ⟨c, text, hwrite, .inr hdigit⟩

/-- A written integer is scanned as its sign and its decimal digits. -/
lemma scanNumeral_writeInt (n : Int) {rest : List Char} (hrest : EndsNumeral rest) :
    scanNumeral (symbols (writeInt n rest)) =
      .ok (⟨decide (n < 0), decimal n.natAbs, none, none⟩, symbols rest) := by
  rw [writeInt]
  split_ifs with hsign
  · rw [symbols_cons, scanNumeral, scanUnsigned_writeNat true _ hrest, decide_eq_true hsign]
  · have hunsigned := scanUnsigned_writeNat false n.natAbs hrest
    obtain ⟨c, text, hwrite, hdigit⟩ := exists_writeNat_eq_cons n.natAbs rest
    rw [hwrite] at hunsigned ⊢
    have hminus : c ≠ '-' := by
      rintro rfl
      exact absurd hdigit (by decide)
    rw [symbols_cons, scanNumeral, decide_eq_false hsign]
    · exact hunsigned
    · rintro tail heq
      exact hminus (Option.some.inj (List.cons.inj heq).1)

/-- An integer that fits a signed or an unsigned word is read back as a number. -/
lemma readNumber_writeInt {n : Int} (hleast : Int64.minValue.toInt ≤ n)
    (hgreatest : n ≤ greatestWord) {rest : List Char} (hrest : EndsNumeral rest) :
    readNumber (symbols (writeInt n rest)) = .ok (.integer n, symbols rest) := by
  have hmin : Int64.minValue.toInt = -0x8000_0000_0000_0000 := by decide
  have hmax : greatestWord = 0xFFFF_FFFF_FFFF_FFFF := by decide
  have hvalue : Numeral.value ⟨decide (n < 0), decimal n.natAbs, none, none⟩ =
      some (.integer n) := by
    have hword : n.natAbs ≤ greatestWord := by omega
    rw [Numeral.value]
    simp only [ofDigits_decimal, Option.isNone_none, hword, and_self, if_true,
      decide_eq_true_eq]
    split_ifs with hsign hfits
    · rw [show -(n.natAbs : Int) = n by omega]
    · exact absurd ⟨by omega, by omega⟩ hfits
    · rw [show (n.natAbs : Int) = n by omega]
  rw [readNumber, scanNumeral_writeInt n hrest]
  simp only [hvalue]

/-- An integer in the range of a type is read back, if the rest does not go on like a numeral. -/
lemma integer_writeInt {type : String} {low high n : Int} (hleast : Int64.minValue.toInt ≤ n)
    (hgreatest : n ≤ greatestWord) (hlow : low ≤ n) (hhigh : n ≤ high) {rest : List Char}
    (hrest : EndsNumeral rest) :
    Reader.integer type low high (symbols (writeInt n rest)) = .ok (n, symbols rest) := by
  have hread := readNumber_writeInt hleast hgreatest hrest
  obtain ⟨c, text, hwrite, hstart⟩ := exists_writeInt_eq_cons n rest
  have hblank : isBlank (some c) = false := by
    rcases hstart with rfl | hdigit
    · decide
    · exact isBlank_of_isDigit hdigit
  have hnumeral : c = '-' ∨ (digit? c).isSome := by
    refine hstart.imp_right fun hdigit => ?_
    rw [digit?_of_isDigit hdigit]
    rfl
  rw [hwrite, symbols_cons] at hread ⊢
  rw [Reader.integer, skipBlanks_cons hblank]
  simp only [if_pos hnumeral, hread, if_pos (And.intro hlow hhigh)]

/-- **A number that fits a word is read back**, if the rest does not go on like a numeral. -/
theorem unsigned_writeNat {type : String} {n : Nat} (hn : n ≤ greatestWord) {rest : List Char}
    (hrest : EndsNumeral rest) :
    Reader.unsigned type (symbols (writeNat n rest)) = .ok (UInt64.ofNat n, symbols rest) := by
  have hleast : Int64.minValue.toInt ≤ 0 := by decide
  have hmax : (UInt64.size : Int) - 1 = greatestWord := by decide
  have hint : Reader.integer type 0 (UInt64.size - 1) (symbols (writeNat n rest)) =
      .ok ((n : Int), symbols rest) := by
    rw [← writeInt_natCast]
    exact integer_writeInt (by omega) (by omega) (by omega) (by omega) hrest
  rw [Reader.unsigned, Reader.bind_of_ok hint]
  rfl

/-- **A signed number is read back** in the same way. -/
theorem signed_writeInt {type : String} (n : Int64) {rest : List Char}
    (hrest : EndsNumeral rest) :
    Reader.signed type (symbols (writeInt n.toInt rest)) = .ok (n, symbols rest) := by
  have hleast := n.minValue_le_toInt
  have hgreatest := n.toInt_le
  have hmax : Int64.maxValue.toInt ≤ greatestWord := by decide
  have hint : Reader.integer type Int64.minValue.toInt Int64.maxValue.toInt
      (symbols (writeInt n.toInt rest)) = .ok (n.toInt, symbols rest) :=
    integer_writeInt hleast (by omega) hleast hgreatest hrest
  rw [Reader.signed, Reader.bind_of_ok hint]
  exact congrArg (fun m => Except.ok (m, symbols rest)) (Int64.ofInt_toInt n)

section

variable {type : String} {style : Style} {rest : List Char}

lemma write_ofNat (n : Nat) : (Value.ofNat n).write style rest = writeNat n rest := by
  rw [Value.ofNat, Value.write, writeNumber, writeInt_natCast]

lemma toNat_le_greatestWord (n : UInt64) : n.toNat ≤ greatestWord := by
  have := n.toNat_lt_size
  rw [greatestWord]
  omega

lemma unsigned_write (n : UInt64) (hrest : EndsNumeral rest) :
    Reader.unsigned type (symbols ((Value.ofNat n.toNat).write style rest)) =
      .ok (n, symbols rest) := by
  rw [write_ofNat, unsigned_writeNat (toNat_le_greatestWord n) hrest, UInt64.ofNat_toNat]

lemma signed_write (n : Int64) (hrest : EndsNumeral rest) :
    Reader.signed type (symbols ((Value.ofInt n.toInt).write style rest)) =
      .ok (n, symbols rest) := by
  rw [Value.ofInt, Value.write, writeNumber, signed_writeInt n hrest]

end

/-! ## Texts that are read as numbers

A whole number has one spelling: no sign, no leading zero, no point and no exponent.
-/

/-- Only the ten digit characters are taken for digits. -/
lemma eq_digitChar_of_digit? {c : Char} {d : Nat} (h : digit? c = some d) :
    c = Nat.digitChar d ∧ d < 10 := by
  rw [digit?] at h
  split_ifs at h with hrange
  cases h
  have hlow : 48 ≤ c.toNat := UInt32.le_iff_toNat_le.mp hrange.1
  have hhigh : c.toNat ≤ 57 := UInt32.le_iff_toNat_le.mp hrange.2
  have hlt : c.toNat - '0'.toNat < 10 := by change c.toNat - 48 < 10; omega
  refine ⟨Char.toNat_inj.mp ?_, hlt⟩
  rw [Nat.toNat_digitChar_of_lt_ten hlt]
  change c.toNat = 48 + (c.toNat - 48)
  omega

/-- Where a whole text is taken for digits, it is made of these. -/
lemma eq_map_digitChar_of_spanDigits {text : List Char} {digits : List Nat}
    (h : spanDigits (symbols text) = (digits, [])) :
    text = digits.map Nat.digitChar ∧ ∀ d ∈ digits, d < 10 := by
  induction text generalizing digits with
  | nil =>
      cases h
      exact ⟨rfl, fun d hd => absurd hd List.not_mem_nil⟩
  | cons c text ih =>
      rw [symbols_cons, spanDigits] at h
      cases hdigit : digit? c with
      | none =>
          rw [hdigit] at h
          cases h
      | some d =>
          simp only [hdigit] at h
          obtain ⟨rfl, hrest⟩ := Prod.mk.inj h
          obtain ⟨rfl, hsmall⟩ := eq_digitChar_of_digit? hdigit
          obtain ⟨htext, hdigits⟩ := ih (Prod.ext rfl hrest)
          refine ⟨by rw [List.map_cons, ← htext], fun e he => ?_⟩
          rcases List.mem_cons.mp he with rfl | he
          · exact hsmall
          · exact hdigits e he

/-- Digits behind a number that is not zero are the last digits of a greater one. -/
lemma toDigits_append_map_digitChar {n : Nat} (hn : 0 < n) {digits : List Nat}
    (hdigits : ∀ d ∈ digits, d < 10) :
    Nat.toDigits 10 n ++ digits.map Nat.digitChar =
      Nat.toDigits 10 (digits.foldl (fun n d => 10 * n + d) n) := by
  induction digits generalizing n with
  | nil => exact List.append_nil _
  | cons d digits ih =>
      have hd : d < 10 := hdigits d List.mem_cons_self
      have hstep : Nat.toDigits 10 n ++ [Nat.digitChar d] = Nat.toDigits 10 (10 * n + d) := by
        rw [← Nat.toDigits_of_lt_base hd]
        exact Nat.toDigits_append_toDigits (by decide) hn hd
      calc Nat.toDigits 10 n ++ (d :: digits).map Nat.digitChar
          = Nat.toDigits 10 n ++ [Nat.digitChar d] ++ digits.map Nat.digitChar := by simp
        _ = Nat.toDigits 10 (10 * n + d) ++ digits.map Nat.digitChar := by rw [hstep]
        _ = Nat.toDigits 10 ((d :: digits).foldl (fun n d => 10 * n + d) n) :=
          ih (by omega) fun e he => hdigits e (List.mem_cons_of_mem _ he)

/-- Where a whole text is taken for a number, it is the decimal of this, without leading zeros. -/
lemma eq_toDigits_of_scanWhole {text : List Char} {digits : List Nat}
    (h : scanWhole (symbols text) = .ok (digits, [])) :
    text = Nat.toDigits 10 (ofDigits digits) := by
  have hdigits : scanDigits (symbols text) = .ok (digits, []) := by
    rw [scanWhole] at h
    split at h
    · cases h
    · exact h
  have hspan : spanDigits (symbols text) = (digits, []) := by
    rw [scanDigits] at hdigits
    split at hdigits
    · cases hdigits
    · exact Except.ok.inj hdigits
  obtain ⟨htext, hsmall⟩ := eq_map_digitChar_of_spanDigits hspan
  cases digits with
  | nil =>
      rw [scanDigits, hspan] at hdigits
      cases hdigits
  | cons d rest =>
      by_cases hzero : d = 0
      · -- behind a leading zero there is nothing
        subst hzero
        cases rest with
        | nil => exact htext
        | cons e rest =>
            rw [scanWhole, hdigits] at h
            cases h
      · have hd := hsmall d List.mem_cons_self
        have happend := toDigits_append_map_digitChar (Nat.pos_of_ne_zero hzero)
          fun e he => hsmall e (List.mem_cons_of_mem _ he)
        rw [Nat.toDigits_of_lt_base hd] at happend
        rw [htext, List.map_cons, ofDigits, List.foldl_cons, Nat.mul_zero, Nat.zero_add]
        exact happend

lemma eq_of_scanFraction_none {input rest : List Symbol}
    (h : scanFraction input = .ok (none, rest)) : rest = input := by
  rw [scanFraction.eq_def] at h
  split at h
  · next digits =>
      cases hscan : scanDigits digits with
      | error e => rw [hscan] at h; cases h
      | ok found => rw [hscan] at h; cases h
  · cases h
    rfl

lemma eq_of_scanExponent_none {input rest : List Symbol}
    (h : scanExponent input = .ok (none, rest)) : rest = input := by
  rw [scanExponent.eq_def] at h
  split at h
  · next c tail =>
      split_ifs at h
      · cases hscan : scanDigits (scanSign tail).2 with
        | error e => simp only [hscan] at h; cases h
        | ok found => simp only [hscan] at h; cases h
      · cases h
        rfl
  · cases h
    rfl

/-- A numeral without a fraction and an exponent is its whole part. -/
lemma scanWhole_of_scanUnsigned {negative : Bool} {input rest : List Symbol} {numeral : Numeral}
    (h : scanUnsigned negative input = .ok (numeral, rest))
    (hfraction : numeral.fraction = none) (hexponent : numeral.exponent = none) :
    numeral.negative = negative ∧ scanWhole input = .ok (numeral.whole, rest) := by
  rw [scanUnsigned] at h
  split at h
  · cases h
  · next whole behind hwhole =>
      split at h
      · cases h
      · next fraction further hscan =>
          cases hlast : scanExponent further with
          | error e => rw [hlast] at h; cases h
          | ok found =>
              rw [hlast] at h
              cases h
              obtain ⟨exponent, rest⟩ := found
              obtain rfl : fraction = none := hfraction
              obtain rfl : exponent = none := hexponent
              rw [eq_of_scanExponent_none hlast, eq_of_scanFraction_none hscan]
              exact ⟨rfl, hwhole⟩

/-- Only numerals without a sign, a fraction and an exponent stand for natural numbers. -/
lemma eq_of_value_integer {numeral : Numeral} {n : Nat}
    (h : numeral.value = some (.integer n)) :
    numeral.negative = false ∧ numeral.fraction = none ∧ numeral.exponent = none ∧
      n = ofDigits numeral.whole := by
  have hdouble : ∀ (x? : Option Binary64) (f : Binary64 → Binary64),
      (x?.map fun x => Number.double (f x)) ≠ some (.integer n) := by
    intro x? f hx
    obtain ⟨x, -, hx⟩ := Option.map_eq_some_iff.mp hx
    cases hx
  rw [Numeral.value] at h
  by_cases hplain : numeral.fraction.isNone ∧ numeral.exponent.isNone ∧
      ofDigits numeral.whole ≤ greatestWord
  · simp only [if_pos hplain] at h
    have hpositive : numeral.negative = false := by
      rw [← Bool.not_eq_true]
      intro hnegative
      rw [if_pos hnegative] at h
      split_ifs at h
      · have hsign := Number.integer.inj (Option.some.inj h)
        omega
      · exact hdouble _ _ h
    rw [hpositive, if_neg Bool.false_ne_true] at h
    exact ⟨hpositive, Option.isNone_iff_eq_none.mp hplain.1,
      Option.isNone_iff_eq_none.mp hplain.2.1,
      (Int.natCast_inj.mp (Number.integer.inj (Option.some.inj h))).symm⟩
  · simp only [if_neg hplain] at h
    exact absurd h (hdouble _ _)

/-- Where a whole text is read as a natural number, it is the decimal of this. -/
lemma eq_toDigits_of_readNumber {text : List Char} {n : Nat}
    (h : readNumber (symbols text) = .ok (.integer n, [])) : text = Nat.toDigits 10 n := by
  rw [readNumber] at h
  split at h
  · cases h
  · next numeral rest hscan =>
      split at h
      · next number hvalue =>
          cases h
          obtain ⟨hpositive, hfraction, hexponent, rfl⟩ := eq_of_value_integer hvalue
          rw [scanNumeral.eq_def] at hscan
          split at hscan
          · have hsign := (scanWhole_of_scanUnsigned hscan hfraction hexponent).1
            rw [hpositive] at hsign
            cases hsign
          · exact eq_toDigits_of_scanWhole
              (scanWhole_of_scanUnsigned hscan hfraction hexponent).2
      · cases h

lemma skipBlanks_of_startsNumber {input : List Symbol} (h : Reader.startsNumber input = true) :
    skipBlanks input = input := by
  rw [Reader.startsNumber.eq_def] at h
  split at h
  · next c rest =>
      refine skipBlanks_cons ?_
      rcases Bool.or_eq_true_iff.mp h with hminus | hdigit
      · rw [decide_eq_true_eq.mp hminus]
        rfl
      · refine isBlank_of_isDigit ?_
        obtain ⟨d, hd⟩ := Option.isSome_iff_exists.mp hdigit
        rw [digit?] at hd
        split_ifs at hd with hrange
        simpa [Char.isDigit, Char.le_def] using hrange
  · cases h

/-- **A text that is read as a number is how the number is written.** -/
theorem eq_toDigits_of_unsigned {type : String} {text : List Char} {a : UInt64}
    (hstart : Reader.startsNumber (symbols text) = true)
    (h : Reader.unsigned type (symbols text) = .ok (a, [])) :
    text = Nat.toDigits 10 a.toNat := by
  obtain ⟨n, rest, hint, hresult⟩ := Reader.exists_of_bind_ok h
  cases hresult
  rw [Reader.integer, skipBlanks_of_startsNumber hstart] at hint
  split at hint
  · split_ifs at hint
    · split at hint
      · cases hint
      · cases hint
      · next number tail hread =>
          split_ifs at hint with hrange
          cases hint
          obtain ⟨n, rfl⟩ := Int.eq_ofNat_of_zero_le hrange.1
          have hword : (UInt64.ofNat (n : Int).toNat).toNat = n := by
            rw [Int.toNat_natCast, UInt64.toNat_ofNat']
            refine Nat.mod_eq_of_lt ?_
            rw [UInt64.size] at hrange
            omega
          rw [hword]
          exact eq_toDigits_of_readNumber hread
    · exact absurd hint Reader.unwanted_ne_ok
  · exact absurd hint Reader.unwanted_ne_ok

end CallProfile.Json
