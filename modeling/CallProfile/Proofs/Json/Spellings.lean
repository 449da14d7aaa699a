import CallProfile.Json.Record
import CallProfile.Json.Writer
import Mathlib.Tactic.Lemma
import Mathlib.Tactic.SplitIfs

/-!
# How texts may be spelled

The writer has one spelling for every text.  A reader has to know them all: blanks between tokens,
the escapes that the writer has no use for, and code units, which may come in pairs.  The grammar is
given here by relations that say what the front of the input spells and what comes behind it.

* `Blanks`, `QuotedChar`, `QuotedText` — the grammar, up to the closing quote of a text.
* **`readQuoted_of_quotedText`** — every spelling of a text is read as this text.  A character is
  one step of the scan, whatever its spelling (`scan_of_quotedChar`).
* `quotedText_quoteTail` — what the writer makes of a text is one of its spellings.
-/

namespace CallProfile.Json

/-! ## Blanks -/

@[simp] lemma symbols_cons (c : Char) (text : List Char) :
    symbols (c :: text) = some c :: symbols text := rfl

lemma skipBlanks_cons {s : Symbol} {rest : List Symbol} (h : isBlank s = false) :
    skipBlanks (s :: rest) = s :: rest := by
  rw [skipBlanks, h]
  rfl

/-- Nothing but blanks stands in front of the rest. -/
inductive Blanks : List Char → List Char → Prop
  | nil (rest : List Char) : Blanks rest rest
  | cons {c : Char} {text rest : List Char} (hc : c = ' ' ∨ c = '\n' ∨ c = '\t' ∨ c = '\r')
    (htail : Blanks text rest) : Blanks (c :: text) rest

/-- Blanks in front of a text are skipped together with those that it starts with. -/
lemma Blanks.skipBlanks_eq {text rest : List Char} (h : Blanks text rest) :
    skipBlanks (symbols text) = skipBlanks (symbols rest) := by
  induction h with
  | nil => rfl
  | @cons c text rest hc _ ih =>
      have hblank : isBlank (some c) = true := by
        rcases hc with rfl | rfl | rfl | rfl <;> decide
      rw [symbols_cons, skipBlanks, if_pos hblank, ih]

lemma Blanks.length_le {text rest : List Char} (h : Blanks text rest) :
    rest.length ≤ text.length := by
  induction h with
  | nil => exact Nat.le_refl _
  | cons _ _ ih => exact Nat.le_trans ih (Nat.le_succ _)

lemma blanks_replicate (n : Nat) (rest : List Char) :
    Blanks (List.replicate n ' ' ++ rest) rest := by
  induction n with
  | zero => exact .nil rest
  | succ n ih => exact .cons (.inl rfl) ih

/-- A new line and its indentation are blanks. -/
lemma blanks_newLine (style : Style) (rest : List Char) : Blanks (style.newLine rest) rest := by
  cases style with
  | compact => exact .nil rest
  | indented level => exact .cons (.inr (.inl rfl)) (blanks_replicate _ rest)

/-! ## Characters of a quoted text -/

/-- The letters that stand for a character behind a backslash. -/
def letterEscapes : List (Char × Char) :=
  [ ('"', '"'), ('\\', '\\'), ('/', '/'), ('b', '\x08'), ('f', '\x0c'), ('n', '\n'), ('r', '\r'),
    ('t', '\t') ]

/-- Four hexadecimal digits, large or small, spell a code unit. -/
inductive UnitDigits : List Char → Nat → List Char → Prop
  | mk {a b c d : Char} {i j k l : Nat} (ha : hexDigit? a = some i) (hb : hexDigit? b = some j)
    (hc : hexDigit? c = some k) (hd : hexDigit? d = some l) (rest : List Char) :
    UnitDigits (a :: b :: c :: d :: rest) (((i * 16 + j) * 16 + k) * 16 + l) rest

/-- The spellings of a character: itself, a letter behind a backslash, a code unit, or two code
units if it does not fit in one. -/
inductive QuotedChar : List Char → Char → List Char → Prop
  | plain {c : Char} (hquote : c ≠ '"') (hslash : c ≠ '\\') (hcontrol : 0x20 ≤ c.toNat)
    (rest : List Char) : QuotedChar (c :: rest) c rest
  | letter {letter c : Char} (h : (letter, c) ∈ letterEscapes) (rest : List Char) :
    QuotedChar ('\\' :: letter :: rest) c rest
  | unit {c : Char} {text rest : List Char} (h : UnitDigits text c.toNat rest) :
    QuotedChar ('\\' :: 'u' :: text) c rest
  | pair {c : Char} {high low : Nat} {text more rest : List Char}
    (hhigh : UnitDigits text (0xd800 + high) ('\\' :: 'u' :: more))
    (hlow : UnitDigits more (0xdc00 + low) rest) (hhalf : high < 0x400) (hother : low < 0x400)
    (hc : c.toNat = 0x10000 + high * 0x400 + low) : QuotedChar ('\\' :: 'u' :: text) c rest

/-- The spellings of a text, from behind the quote that opens it. -/
inductive QuotedText : List Char → List Char → List Char → Prop
  | close (rest : List Char) : QuotedText ('"' :: rest) [] rest
  | cons {text more chars rest : List Char} {c : Char} (hc : QuotedChar text c more)
    (htail : QuotedText more chars rest) : QuotedText text (c :: chars) rest

/-! ## Lengths -/

section

variable {text rest : List Char}

lemma UnitDigits.length_lt {unit : Nat} (h : UnitDigits text unit rest) :
    rest.length < text.length := by
  cases h with
  | mk => simp only [List.length_cons]; omega

lemma QuotedChar.length_lt {c : Char} (h : QuotedChar text c rest) :
    rest.length < text.length := by
  cases h with
  | plain => exact Nat.lt_succ_self _
  | letter => simp only [List.length_cons]; omega
  | unit h =>
      have := h.length_lt
      simp only [List.length_cons]
      omega
  | pair hhigh hlow =>
      have := hhigh.length_lt
      have := hlow.length_lt
      simp only [List.length_cons] at *
      omega

lemma QuotedText.length_lt {chars : List Char} (h : QuotedText text chars rest) :
    rest.length < text.length := by
  induction h with
  | close => exact Nat.lt_succ_self _
  | cons hc _ ih => exact Nat.lt_trans ih hc.length_lt

end

/-! ## Reading -/

/-- The digits of a code unit are scanned up to the last one, which completes it. -/
lemma scan_of_unitDigits {text rest seen : List Char} {unit : Nat} (h : UnitDigits text unit rest)
    {high : Option Nat} {next : Scan} {done : Option Char}
    (hunit : finishUnit high unit = .ok (next, done)) :
    scan true (.unit high 3 0) seen false (symbols text) =
      scan true next (done.toList ++ seen) false (symbols rest) := by
  cases h with
  | mk ha hb hc hd =>
      simp [scan, escapeStep, ha, hb, hc, hd, hunit]

lemma scan_unitEscape (text seen : List Char) :
    scan true .plain seen false (symbols ('\\' :: 'u' :: text)) =
      scan true (.unit none 3 0) seen false (symbols text) := by
  simp [scan, escapeStep]

lemma scan_pairEscape (high : Nat) (text seen : List Char) :
    scan true (.paired high) seen false (symbols ('\\' :: 'u' :: text)) =
      scan true (.unit (some high) 3 0) seen false (symbols text) := by
  simp [scan, escapeStep]

/-- A code unit of a character is no half of a pair. -/
lemma finishUnit_toNat (c : Char) : finishUnit none c.toNat = .ok (.plain, some c) := by
  have hvalid := c.valid
  rw [UInt32.isValidChar, Nat.isValidChar] at hvalid
  change c.toNat < 0xd800 ∨ 0xdfff < c.toNat ∧ c.toNat < 0x110000 at hvalid
  have hlow : isLowHalf c.toNat = false := by simp [isLowHalf]; omega
  have hhigh : isHighHalf c.toNat = false := by simp [isHighHalf]; omega
  rw [finishUnit, hlow, hhigh, Char.ofNat_toNat]
  rfl

/-- **However a character is spelled**, the scan sees it and is between characters again. -/
lemma scan_of_quotedChar {text rest : List Char} {c : Char} (h : QuotedChar text c rest)
    (seen : List Char) :
    scan true .plain seen false (symbols text) =
      scan true .plain (c :: seen) false (symbols rest) := by
  cases h with
  | plain hquote hslash hcontrol => simp [scan, hquote, hslash, Nat.not_lt.mpr hcontrol]
  | letter h =>
      simp only [letterEscapes, List.mem_cons, Prod.mk.injEq, List.not_mem_nil, or_false] at h
      rcases h with ⟨rfl, rfl⟩ | ⟨rfl, rfl⟩ | ⟨rfl, rfl⟩ | ⟨rfl, rfl⟩ | ⟨rfl, rfl⟩ | ⟨rfl, rfl⟩ |
        ⟨rfl, rfl⟩ | ⟨rfl, rfl⟩ <;> simp [scan, escapeStep, unescape?]
  | unit h =>
      rw [scan_unitEscape, scan_of_unitDigits h (finishUnit_toNat c)]
      rfl
  | @pair c high low text more rest hhigh hlow hhalf hother hc =>
      have hfirst : finishUnit none (0xd800 + high) = .ok (.paired (0xd800 + high), none) := by
        have hlowHalf : isLowHalf (0xd800 + high) = false := by simp [isLowHalf]; omega
        have hhighHalf : isHighHalf (0xd800 + high) = true := by simp [isHighHalf]; omega
        rw [finishUnit, hlowHalf, hhighHalf]
        rfl
      have hsecond : finishUnit (some (0xd800 + high)) (0xdc00 + low) = .ok (.plain, some c) := by
        have hlowHalf : isLowHalf (0xdc00 + low) = true := by simp [isLowHalf]; omega
        have hvalue : (0xd800 + high - 0xd800) * 0x400 + (0xdc00 + low - 0xdc00) + 0x10000 =
            c.toNat := by omega
        rw [finishUnit, hlowHalf, hvalue, Char.ofNat_toNat]
        rfl
      rw [scan_unitEscape, scan_of_unitDigits hhigh hfirst, scan_pairEscape,
        scan_of_unitDigits hlow hsecond]
      rfl

/-- **A text is read from every spelling of it.** -/
theorem readQuoted_of_quotedText {text chars rest : List Char} (h : QuotedText text chars rest) :
    readQuoted (symbols text) = .ok (String.ofList chars, symbols rest) := by
  have hscan : ∀ seen, scan true .plain seen false (symbols text) =
      .ok (seen.reverse ++ chars, symbols rest) := by
    induction h with
    | close rest => simp [scan]
    | cons hc _ ih =>
        intro seen
        rw [scan_of_quotedChar hc, ih, List.reverse_cons, List.append_assoc, List.singleton_append]
  rw [readQuoted, hscan []]
  rfl

/-! ## Writing -/

lemma hexDigit?_digitChar : ∀ digit < 16, hexDigit? (Nat.digitChar digit) = some digit := by
  decide

/-- The writer escapes a character in one of its spellings. -/
lemma quotedChar_escape (c : Char) (rest : List Char) : QuotedChar (escape c ++ rest) c rest := by
  rw [escape]
  split_ifs with hquote hslash hline hreturn htab hback hfeed hcontrol
  · subst hquote; exact .letter (by decide) rest
  · subst hslash; exact .letter (by decide) rest
  · subst hline; exact .letter (by decide) rest
  · subst hreturn; exact .letter (by decide) rest
  · subst htab; exact .letter (by decide) rest
  · subst hback; exact .letter (by decide) rest
  · subst hfeed; exact .letter (by decide) rest
  · have hzero : hexDigit? '0' = some 0 := by decide
    have hhigh := hexDigit?_digitChar (c.toNat / 16) (by omega)
    have hlow := hexDigit?_digitChar (c.toNat % 16) (by omega)
    have hunit := UnitDigits.mk hzero hzero hhigh hlow rest
    have hvalue : ((0 * 16 + 0) * 16 + c.toNat / 16) * 16 + c.toNat % 16 = c.toNat := by omega
    rw [hvalue] at hunit
    exact .unit hunit
  · exact .plain hquote hslash (Nat.not_lt.mp hcontrol) rest

/-- **What the writer makes of a text spells it.** -/
lemma quotedText_quoteTail (text rest : List Char) :
    QuotedText (quoteTail text rest) text rest := by
  induction text with
  | nil => exact .close rest
  | cons c text ih => exact .cons (quotedChar_escape c _) ih

end CallProfile.Json
