import CallProfile.Json.Numeral
import CallProfile.Json.Quote

/-!
# Writing documents

A document is written either compactly, without any blanks, or over several lines with two blanks
of indentation for each level.  Both are one function with a `Style`.  What is written goes in
front of a text that is there already, so that writing a document and reading it back can be
compared whatever comes behind it.
-/

namespace CallProfile.Json

/-- Where line breaks and blanks go. -/
inductive Style
  /-- Nowhere. -/
  | compact
  /-- Every item stands on a line of its own, indented by its level. -/
  | indented (level : Nat)
deriving DecidableEq

namespace Style

/-- The style of the items of a container. -/
def inner : Style → Style
  | compact => compact
  | indented level => indented (level + 1)

/-- Start a new line in front of `rest`. -/
def newLine (style : Style) (rest : List Char) : List Char :=
  match style with
  | compact => rest
  | indented level => '\n' :: (List.replicate (2 * level) ' ' ++ rest)

/-- Write the colon behind a name in front of `rest`. -/
def colon (style : Style) (rest : List Char) : List Char :=
  match style with
  | compact => ':' :: rest
  | indented _ => ':' :: ' ' :: rest

end Style

mutual

/-- Write a value in front of `rest`. -/
def Value.write (style : Style) : Value → (rest : List Char) → List Char
  | .null, rest => 'n' :: 'u' :: 'l' :: 'l' :: rest
  | .boolean true, rest => 't' :: 'r' :: 'u' :: 'e' :: rest
  | .boolean false, rest => 'f' :: 'a' :: 'l' :: 's' :: 'e' :: rest
  | .number n, rest => writeNumber n rest
  | .text s, rest => quote s.toList rest
  | .array [], rest => '[' :: ']' :: rest
  | .array (item :: items), rest =>
    '[' :: style.inner.newLine
      (item.write style.inner (writeItems style.inner items (style.newLine (']' :: rest))))
  | .object [], rest => '{' :: '}' :: rest
  | .object ((name, value) :: members), rest =>
    '{' :: style.inner.newLine (quote name.toList (style.colon
      (value.write style.inner (writeMembers style.inner members (style.newLine ('}' :: rest))))))

/-- Write the items behind the first one, each with the comma before it. -/
def writeItems (style : Style) : List Value → (rest : List Char) → List Char
  | [], rest => rest
  | item :: items, rest =>
    ',' :: style.newLine (item.write style (writeItems style items rest))

/-- Write the members behind the first one, each with the comma before it. -/
def writeMembers (style : Style) : List (String × Value) → (rest : List Char) → List Char
  | [], rest => rest
  | (name, value) :: members, rest =>
    ',' :: style.newLine (quote name.toList (style.colon
      (value.write style (writeMembers style members rest))))

end

namespace Value

/-- The compact text of a document. -/
def compact (value : Value) : String := String.ofList (value.write .compact [])

/-- The indented text of a document. -/
def pretty (value : Value) : String := String.ofList (value.write (.indented 0) [])

/-- A natural number as a value. -/
def ofNat (n : Nat) : Value := .number (.integer n)

/-- An integer as a value. -/
def ofInt (n : Int) : Value := .number (.integer n)

end Value

end CallProfile.Json
