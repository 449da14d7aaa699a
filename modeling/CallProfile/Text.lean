/-!
# Text

What is read is cut into digits and fields, and what is shown is put into columns.

Numerals, timestamps and arguments all spell numbers with the ten ASCII digits.  Listings put
numbers in columns that end at the same place.  Names are searched for a fragment, tested for a
leading part, and cut at a separator; these are stated on lists of characters, where `occursIn_iff`
says that the search finds a fragment exactly when the text is some text, the fragment, and some
text, and `hasPart_iff` says it of whole texts.
-/

namespace CallProfile

/-! ## Digits -/

/-- The value of a decimal digit. -/
def digit? (c : Char) : Option Nat :=
  if '0' ≤ c ∧ c ≤ '9' then some (c.toNat - '0'.toNat) else none

/-- The whole number that digits spell, the first one having the greatest weight. -/
def ofDigits (digits : List Nat) : Nat := digits.foldl (fun n d => 10 * n + d) 0

/-- The whole number that a text spells: at least one digit, and nothing but digits. -/
def natural? (text : List Char) : Option Nat :=
  if text = [] then none else (text.mapM digit?).map ofDigits

/-! ## Columns -/

/-- A text with blanks in front of it, so that it is at least `width` characters wide. -/
def alignRight (width : Nat) (text : String) : String :=
  String.ofList (List.replicate (width - text.length) ' ') ++ text

/-- The blanks in front of an entry that is `depth` levels deep: two for each level. -/
def indentation (depth : Nat) : String := String.ofList (List.replicate (2 * depth) ' ')

/-! ## Finding and cutting -/

/-- Whether `part` stands somewhere in `text`. -/
def occursIn (part : List Char) : (text : List Char) → Bool
  | [] => part.isEmpty
  | c :: rest => part.isPrefixOf (c :: rest) || occursIn part rest

/-- The search finds a part exactly if the text has it, with something before and after it. -/
theorem occursIn_iff (part : List Char) : ∀ text : List Char,
    occursIn part text = true ↔ ∃ before after, text = before ++ part ++ after
  | [] => by
      cases part with
      | nil => exact ⟨fun _ => ⟨[], [], rfl⟩, fun _ => rfl⟩
      | cons p ps =>
          refine ⟨fun h => by simp [occursIn] at h, fun ⟨before, after, h⟩ => ?_⟩
          simp at h
  | c :: rest => by
      rw [occursIn, Bool.or_eq_true, List.isPrefixOf_iff_prefix, occursIn_iff part rest]
      constructor
      · rintro (⟨after, h⟩ | ⟨before, after, h⟩)
        · exact ⟨[], after, by simp [h]⟩
        · exact ⟨c :: before, after, by simp [h]⟩
      · rintro ⟨before, after, h⟩
        cases before with
        | nil => exact Or.inl ⟨after, by simpa using h.symm⟩
        | cons b before =>
            simp only [List.cons_append, List.cons.injEq] at h
            exact Or.inr ⟨before, after, h.2⟩

/-- Whether the text has `part` in it. -/
def hasPart (text part : String) : Bool := occursIn part.toList text.toList

/-- A text has a part exactly if the characters of the part stand in it one after the other. -/
theorem hasPart_iff {text part : String} :
    hasPart text part = true ↔ part.toList <:+: text.toList := by
  rw [hasPart, occursIn_iff]
  exact exists_congr fun before => exists_congr fun after => eq_comm

/-- Whether the text starts with `start`. -/
def hasStart (text start : String) : Bool := start.toList.isPrefixOf text.toList

/-- The text before and after the first `separator`; `none` if there is no separator. -/
def cut? (separator : Char) : List Char → Option (List Char × List Char)
  | [] => none
  | c :: rest =>
    if c = separator then some ([], rest)
    else (cut? separator rest).map fun (before, after) => (c :: before, after)

/-- The text before the first `separator`, or all of it. -/
def beforeFirst (separator : Char) (text : List Char) : List Char :=
  text.takeWhile (· ≠ separator)

end CallProfile
