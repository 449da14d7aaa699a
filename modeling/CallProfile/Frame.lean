/-!
# Frames

A sample is a list of entries.  An entry is either a code address together with the way in which
the code was running, or the number of a source line that was reached inside the frame before it.
-/

namespace CallProfile

/-- The address of a piece of code. -/
abbrev Address := UInt64

/-- How the code at an address was running when it was sampled. -/
inductive ExecutionMode
  /-- Interpreted. -/
  | plain
  /-- Inside an assembler trampoline, which the call tree leaves out. -/
  | assembler
  /-- Compiled while the program ran. -/
  | jitted
  /-- Compiled from a foreign language. -/
  | native
deriving DecidableEq, Inhabited

/-- The name under which a mode is counted at the node of the call tree where a sample ends. -/
def ExecutionMode.tag? : ExecutionMode → Option String
  | jitted => some "jit"
  | native => some "native"
  | plain | assembler => none

/-- The name of a mode in a dataset. -/
def ExecutionMode.name : ExecutionMode → String
  | plain => "plain"
  | assembler => "assembler"
  | jitted => "jitted"
  | native => "native"

/-- The mode with a name. -/
def ExecutionMode.ofName? : String → Option ExecutionMode
  | "plain" => some plain
  | "assembler" => some assembler
  | "jitted" => some jitted
  | "native" => some native
  | _ => none

/-- A mode is found by its own name. -/
theorem ExecutionMode.ofName?_name (mode : ExecutionMode) : ofName? mode.name = some mode := by
  cases mode <;> rfl

/-- The mode as warnings spell it. -/
def ExecutionMode.label : ExecutionMode → String
  | plain => "Plain"
  | assembler => "Assembler"
  | jitted => "Jitted"
  | native => "Native"

/-- One entry of a sample. -/
inductive Frame
  /-- A call frame. -/
  | code (address : Address) (mode : ExecutionMode)
  /-- A line reached inside the current frame. -/
  | line (number : UInt64)
deriving DecidableEq, Inhabited

namespace Frame

/-- An entry without a mode: a positive number is an address, any other one a negated line. -/
def ofInteger (n : Int) : Frame :=
  if 0 < n then code (UInt64.ofNat n.toNat) .plain else line (UInt64.ofNat n.natAbs)

/-- The address of a call frame. -/
def address? : Frame → Option Address
  | code address _ => some address
  | line _ => none

/-- The mode of a call frame. -/
def mode? : Frame → Option ExecutionMode
  | code _ mode => some mode
  | line _ => none

/-- Whether the entry is a frame of an assembler trampoline. -/
def isAssembler (frame : Frame) : Bool := frame.mode? = some .assembler

/-- Whether the entry is a line. -/
def isLine : Frame → Bool
  | code _ _ => false
  | line _ => true

/-- The tag that a sample is counted under if this is its last entry. -/
def tag? (frame : Frame) : Option String := frame.mode?.bind ExecutionMode.tag?

/-- The entry as warnings spell it. -/
def describe : Frame → String
  | code address mode =>
    "CodeAddress \x7b addr: " ++ toString address ++ ", mode: " ++ mode.label ++ " \x7d"
  | line number => "LineMarker(" ++ toString number ++ ")"

end Frame

end CallProfile
