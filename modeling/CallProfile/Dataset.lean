import CallProfile.Dictionary
import CallProfile.Json.Value
import CallProfile.Time.Instant

/-!
# Datasets

A dataset is what a sampling profiler recorded about one run of a program: the samples, the names
of the code addresses in them, and some facts about the run.

Some datasets are odd without being wrong.  The views go on with them and report what they saw
(`Warning`).  A function of a dataset is chosen by its address, or by a part of its symbol
(`Target`); a part that fits several functions chooses the first one of the dictionary, with a
warning.
-/

namespace CallProfile

/-! ## Samples and runs -/

/-- One observation of the call stack, outermost frame first. -/
structure Sample where
  /-- The entries in the order in which they were recorded. -/
  frames : List Frame
  /-- Further facts about this observation, which no view looks at. -/
  metadata : OrderedMap String Json.Value := ∅

/-- The addresses of the call frames of a sample. -/
def Sample.addresses (sample : Sample) : List Address := sample.frames.filterMap Frame.address?

/-- Whether a sample has a call frame. -/
def Sample.hasCode (sample : Sample) : Bool := sample.frames.any fun f => f.address?.isSome

/-- The record of one run. -/
structure Dataset where
  /-- The observations in the order in which they were made. -/
  samples : List Sample
  /-- The names of addresses; `none` if the profiler did not collect any. -/
  dictionary : Option Dictionary := none
  /-- Facts about the process, such as its command line. -/
  metadata : OrderedMap String String := ∅
  /-- When the run started. -/
  start : Option Instant := none
  /-- When the run ended. -/
  finish : Option Instant := none
  /-- Whether every second entry of a sample is a line. -/
  lineMode : Bool := false

namespace Dataset

/-- The number of samples. -/
def sampleCount (dataset : Dataset) : Nat := dataset.samples.length

/-! ### Facts about the process -/

/-- A fact about the process, or `default` if it is not recorded. -/
def metadataOr (dataset : Dataset) (key default : String) : String :=
  (dataset.metadata.get? key).getD default

/-- The command line of the process. -/
def commandLine (dataset : Dataset) : String := dataset.metadataOr "argv" ""

/-- The machine that ran the program. -/
def machine (dataset : Dataset) : String := dataset.metadataOr "VM" "unknown"

/-- A number of nanoseconds in microseconds, rounded toward zero.  What does not fit a signed
64-bit word becomes the greatest one. -/
def microseconds (nanos : Int) : Int64 :=
  let micros := nanos.tdiv 1000
  if Int64.minValue.toInt ≤ micros ∧ micros ≤ Int64.maxValue.toInt then Int64.ofInt micros
  else Int64.maxValue

/-- The length of the run in microseconds, zero if its start or end is unknown. -/
def runtime (dataset : Dataset) : Int64 :=
  match dataset.start, dataset.finish with
  | some start, some finish => microseconds (Instant.nanosBetween start finish)
  | _, _ => 0

/-! ### Names of addresses -/

/-- What an address is called in the views: its text in the dictionary, a placeholder if it is
missing there, and the address itself if there is no dictionary. -/
def nameOf (dataset : Dataset) (address : Address) : String :=
  match dataset.dictionary with
  | some dictionary => (dictionary.get? address).getD "<unknown code>"
  | none => toString address

/-- The descriptor of an address. -/
def descriptor? (dataset : Dataset) (address : Address) : Option Descriptor :=
  dataset.dictionary.bind fun dictionary => dictionary.descriptor? address

/-- The bare symbol of an address. -/
def symbolOf (dataset : Dataset) (address : Address) : String :=
  ((dataset.descriptor? address).map Descriptor.symbol).getD "unknown"

/-- The addresses whose symbol has `part` in it, in the order of the dictionary. -/
def addressesNamed (dataset : Dataset) (part : String) : List Address :=
  match dataset.dictionary with
  | some dictionary => dictionary.addressesNamed part
  | none => []

/-- The entries of a sample in words. -/
def sampleText? (dataset : Dataset) (index : Nat) : Option (List String) :=
  dataset.samples[index]?.map fun sample => sample.frames.map fun
    | .code address _ => dataset.nameOf address
    | .line number => "line " ++ toString number

end Dataset

/-! ## Warnings -/

/-- Something odd that did not stop the work. -/
inductive Warning
  /-- A run that ended before it started. -/
  | endBeforeStart (finish start : Instant)
  /-- A call frame where line mode has a line. -/
  | lineExpected (entry : Nat) (found : Frame)
  /-- A name that fits more than one address. -/
  | ambiguousName (count : Nat) (part : String) (chosen : Address) (name : String)
deriving DecidableEq

/-- The sentence for a warning. -/
def Warning.message : Warning → String
  | endBeforeStart finish start =>
    s!"Dataset end time {finish.text} precedes start time {start.text}"
  | lineExpected entry found => s!"Expected line marker at entry {entry}, found {found.describe}"
  | ambiguousName count part chosen name =>
    s!"{count} functions match '{part}', using {chosen} ({name})"

/-! ## Choosing a function -/

/-- How a function is chosen. -/
inductive Target
  /-- By its address. -/
  | address (address : Address)
  /-- By a part of its symbol. -/
  | name (part : String)
deriving DecidableEq

namespace Dataset

/-- The function that is chosen; `none` if a name fits no function. -/
def resolve? (dataset : Dataset) : Target → Option Address
  | .address address => some address
  | .name part => (dataset.addressesNamed part).head?

/-- The warnings about a choice. -/
def resolveWarnings (dataset : Dataset) : Target → List Warning
  | .address _ => []
  | .name part =>
    match dataset.addressesNamed part with
    | first :: _ :: rest =>
      [.ambiguousName (rest.length + 2) part first (dataset.nameOf first)]
    | _ => []

end Dataset

end CallProfile
