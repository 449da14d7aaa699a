import CallProfile.Text

/-!
# Switches

A switch is an argument that starts with a dash.  It has a long name after two dashes, and it may
have a letter after one.  Letters can be run together.  A switch that takes a value has it behind
an equals sign, behind its letter, or as the next argument, which then must not look like a switch
itself.  No switch may be given twice.

`scanSwitches` reads switches until an argument is none; what it returns first is the list of the
settings made so far.
-/

namespace CallProfile.CommandLine

/-- What a switch takes. -/
inductive Takes
  /-- Nothing. -/
  | nothing
  /-- Any text. -/
  | text
  /-- A text that is not empty. -/
  | path
  /-- An unsigned number with 64 bits. -/
  | number
deriving DecidableEq

/-- A switch. -/
structure Switch where
  /-- The name after two dashes. -/
  name : String
  /-- The letter after one dash. -/
  letter : Option Char := none
  takes : Takes
deriving DecidableEq

/-- The value that a switch was given. -/
inductive Setting
  | on
  | text (value : String)
  | number (value : Nat)
deriving DecidableEq

/-- Why arguments are not read to their end. -/
inductive Stop
  /-- They make no sense. -/
  | misuse
  /-- They ask for help. -/
  | help
  /-- They ask for the version. -/
  | version
deriving DecidableEq

/-- The settings made so far, by the names of the switches. -/
abbrev Settings := List (String × Setting)

/-- The number that a text spells, with or without a plus in front, if it fits 64 bits. -/
def number? (text : String) : Option Nat :=
  let digits := match text.toList with
    | '+' :: rest => rest
    | all => all
  (natural? digits).bind fun n => if n < UInt64.size then some n else none

/-- The setting that a value makes, if the switch takes such a value. -/
def Switch.setting? (switch : Switch) (value : String) : Option Setting :=
  match switch.takes with
  | .nothing => none
  | .text => some (.text value)
  | .path => if value = "" then none else some (.text value)
  | .number => (number? value).map .number

/-- Add the setting of a switch.  Asking for help or for the version ends everything. -/
def set (settings : Settings) (switch : Switch) (setting : Setting) : Except Stop Settings :=
  if switch.name = "help" then .error .help
  else if switch.name = "version" then .error .version
  else if (settings.lookup switch.name).isSome then .error .misuse
  else .ok ((switch.name, setting) :: settings)

/-- Add the setting that a value makes. -/
def setValue (settings : Settings) (switch : Switch) (value : String) : Except Stop Settings :=
  match switch.setting? value with
  | some setting => set settings switch setting
  | none => .error .misuse

/-- Whether an argument would be read as a switch. -/
def looksLikeSwitch (argument : String) : Bool :=
  match argument.toList with
  | '-' :: _ :: _ => true
  | _ => false

/-- Letters that are run together.  A switch that still waits for its value is given back. -/
def scanLetters (switches : List Switch) :
    List Char → Settings → Except Stop (Settings × Option Switch)
  | [], settings => .ok (settings, none)
  | letter :: rest, settings =>
    match switches.find? fun switch => switch.letter = some letter with
    | none => .error .misuse
    | some switch =>
      if switch.takes = .nothing then
        match set settings switch .on with
        | .error stop => .error stop
        | .ok settings => scanLetters switches rest settings
      else
        match rest with
        | [] => .ok (settings, some switch)
        | '=' :: value => (setValue settings switch (String.ofList value)).map (·, none)
        | value => (setValue settings switch (String.ofList value)).map (·, none)

/-- A long name, perhaps with a value behind an equals sign. -/
def scanName (switches : List Switch) (text : List Char) (settings : Settings) :
    Except Stop (Settings × Option Switch) :=
  let name := String.ofList (text.takeWhile (· ≠ '='))
  match switches.find? fun switch => switch.name = name, text.dropWhile (· ≠ '=') with
  | none, _ => .error .misuse
  | some switch, [] =>
    if switch.takes = .nothing then (set settings switch .on).map (·, none)
    else .ok (settings, some switch)
  | some switch, _ :: value => (setValue settings switch (String.ofList value)).map (·, none)

/-- Read switches up to the first argument that is none; this and all after it are given back. -/
def scanSwitches (switches : List Switch) :
    List String → Settings → Except Stop (Settings × List String)
  | [], settings => .ok (settings, [])
  | argument :: rest, settings =>
    if argument = "--" then (if rest.isEmpty then .ok (settings, []) else .error .misuse)
    else if looksLikeSwitch argument then
      let scanned := match argument.toList with
        | '-' :: '-' :: name => scanName switches name settings
        | letters => scanLetters switches letters.tail settings
      match scanned, rest with
      | .error stop, _ => .error stop
      | .ok (settings, none), rest => scanSwitches switches rest settings
      | .ok (_, some _), [] => .error .misuse
      | .ok (settings, some switch), value :: rest =>
        if looksLikeSwitch value then .error .misuse
        else
          match setValue settings switch value with
          | .error stop => .error stop
          | .ok settings => scanSwitches switches rest settings
    else .ok (settings, argument :: rest)

end CallProfile.CommandLine
