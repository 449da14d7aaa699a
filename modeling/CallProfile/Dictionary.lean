import CallProfile.Frame
import CallProfile.Json.Record
import CallProfile.Json.Writer
import CallProfile.OrderedMap
import CallProfile.Text

/-!
# Dictionaries and descriptors

A dictionary gives code addresses their descriptors.  A descriptor is a text of four fields with
colons between them, `language:symbol:line:file`; further colons belong to the last field.

A dictionary is written as an object whose names are the addresses in decimal.  Reading one takes
the members in the order of the text, so an address that is repeated keeps its first place and its
last descriptor.
-/

namespace CallProfile

/-! ## Descriptors -/

/-- The fields of a descriptor. -/
structure Descriptor where
  language : String
  symbol : String
  line : String
  file : String
deriving DecidableEq

/-- The fields of a text that has at least three colons. -/
def Descriptor.parse? (text : String) : Option Descriptor := do
  let (language, rest) ← cut? ':' text.toList
  let (symbol, rest) ← cut? ':' rest
  let (line, file) ← cut? ':' rest
  return ⟨String.ofList language, String.ofList symbol, String.ofList line, String.ofList file⟩

/-- The text of a descriptor. -/
def Descriptor.text (d : Descriptor) : String :=
  d.language ++ ":" ++ d.symbol ++ ":" ++ d.line ++ ":" ++ d.file

/-! ## Dictionaries -/

/-- What code addresses are called, in the order in which they were entered. -/
abbrev Dictionary := OrderedMap Address String

namespace Dictionary

/-- The descriptor of an address, if its text is one. -/
def descriptor? (dictionary : Dictionary) (address : Address) : Option Descriptor :=
  (dictionary.get? address).bind Descriptor.parse?

/-- The addresses whose symbol has `part` in it, in the order of the dictionary. -/
def addressesNamed (dictionary : Dictionary) (part : String) : List Address :=
  dictionary.entries.filterMap fun (address, text) =>
    match Descriptor.parse? text with
    | some d => if hasPart d.symbol part then some address else none
    | none => none

end Dictionary

/-! ## As a document -/

namespace Dictionary

open Json

/-- The document of a dictionary. -/
def value (dictionary : Dictionary) : Value :=
  .object (dictionary.entries.map fun (address, text) => (toString address, .text text))

/-- One entry, from behind the quote that opens the address. -/
def entryMember (dictionary : Dictionary) : Reader Dictionary := do
  let address ← Reader.wordName
  Reader.colon
  return dictionary.insert address (← Reader.string)

/-- A dictionary. -/
def reader (size depth : Nat) : Reader Dictionary := Reader.map size depth entryMember ∅

/-- Read a dictionary from a text. -/
def ofText (text : String) : Except Failure Dictionary :=
  Reader.run (fun size => reader size depthLimit) (symbols text.toList)

end Dictionary

end CallProfile
