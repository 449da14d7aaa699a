/-!
# Input symbols

A document is read from a text or from the bytes of a file, and a file need not be well-formed
UTF-8.  What a reader sees is therefore a list of symbols: a character, or a byte that belongs to
no character.  Bytes that do encode a text give exactly the characters of that text.
-/

namespace CallProfile.Json

/-- A character of the input, or `none` for a byte that is part of no character. -/
abbrev Symbol := Option Char

/-- The symbols of a text. -/
def symbols (text : List Char) : List Symbol := text.map some

/-- The character that starts a list of bytes, and the number of bytes it has beyond the first. -/
def leadingCharacter (bytes : List UInt8) : Option (Char × Nat) :=
  [1, 2, 3, 4].findSome? fun size =>
    match (String.fromUTF8? ⟨(bytes.take size).toArray⟩).map String.toList with
    | some [c] => some (c, size - 1)
    | _ => none

/-- The symbols of bytes that are not known to be a text; `skip` bytes belong to a character that
has been seen already. -/
def symbolsFrom : (skip : Nat) → List UInt8 → List Symbol
  | _, [] => []
  | skip + 1, _ :: rest => symbolsFrom skip rest
  | 0, byte :: rest =>
    match leadingCharacter (byte :: rest) with
    | some (c, more) => some c :: symbolsFrom more rest
    | none => none :: symbolsFrom 0 rest

/-- The symbols of the bytes of a file. -/
def symbolsOfBytes (bytes : ByteArray) : List Symbol :=
  match String.fromUTF8? bytes with
  | some text => symbols text.toList
  | none => symbolsFrom 0 bytes.toList

/-- The bytes of a text are read as its characters. -/
theorem symbolsOfBytes_toUTF8 (text : String) :
    symbolsOfBytes text.toUTF8 = symbols text.toList := by
  have hread : String.fromUTF8? text.toUTF8 = some text := dif_pos text.isValidUTF8
  rw [symbolsOfBytes, hread]

/-- The number of bytes that a symbol takes in a file. -/
def Symbol.byteSize : Symbol → Nat
  | some c => c.utf8Size
  | none => 1

/-- Whether the input still has `count` bytes. -/
def hasBytes : (count : Nat) → List Symbol → Bool
  | 0, _ => true
  | _ + 1, [] => false
  | count + 1, s :: rest => hasBytes (count + 1 - s.byteSize) rest

end CallProfile.Json
