import CallProfile.Command.Run
import CallProfile.CommandLine.Switch

/-!
# The command line

The first argument that is no switch names the command, and the switches behind it are those of
the command.  The dataset may also be given by the environment; an argument goes before it.
-/

namespace CallProfile.CommandLine

/-- What the arguments ask for. -/
inductive Invocation
  | command (command : Command)
  | version
  | help
  /-- The arguments make no sense. -/
  | misuse

/-- Tell what happens; may be given before and behind the command. -/
def verboseSwitch : Switch := { name := "verbose", letter := some 'v', takes := .nothing }

/-- Say how the program is used. -/
def helpSwitch : Switch := { name := "help", letter := some 'h', takes := .nothing }

/-- Say which version the program has. -/
def versionSwitch : Switch := { name := "version", letter := some 'V', takes := .nothing }

/-- The dataset. -/
def inputSwitch : Switch := { name := "input", letter := some 'i', takes := .path }

/-- The file to write to. -/
def outputSwitch : Switch := { name := "output", letter := some 'o', takes := .path }

/-- A switch without a letter. -/
def longSwitch (name : String) (takes : Takes) : Switch := { name, takes }

/-- The switches before the command. -/
def commonSwitches : List Switch := [verboseSwitch, helpSwitch, versionSwitch]

/-- The switches of a command; `none` if there is no such command. -/
def switchesOf? : String → Option (List Switch)
  | "top" => some [inputSwitch, longSwitch "limit" .number, verboseSwitch, helpSwitch]
  | "tree" => some [inputSwitch, outputSwitch, longSwitch "threshold" .number,
      longSwitch "raw" .nothing, longSwitch "depth" .number, longSwitch "entry-prefix" .text,
      longSwitch "driver-marker" .text, verboseSwitch, helpSwitch]
  | "function" => some [inputSwitch, longSwitch "addr" .number, longSwitch "name" .text,
      longSwitch "limit" .number, verboseSwitch, helpSwitch]
  | "report" => some [inputSwitch, outputSwitch, longSwitch "limit" .number,
      longSwitch "function" .number, longSwitch "function-name" .text, verboseSwitch, helpSwitch]
  | "version" => some [verboseSwitch, helpSwitch]
  | _ => none

/-! ### Settings of a command -/

/-- The text that a switch was given. -/
def text? (settings : Settings) (name : String) : Option String :=
  match settings.lookup name with
  | some (.text value) => some value
  | _ => none

/-- The number that a switch was given. -/
def count? (settings : Settings) (name : String) : Option Nat :=
  match settings.lookup name with
  | some (.number value) => some value
  | _ => none

/-- The dataset: that of the arguments, or else that of the environment. -/
def input? (environment : Option String) (settings : Settings) : Option String :=
  match text? settings "input" with
  | some path => some path
  | none => environment.bind fun path => if path = "" then none else some path

/-- The function that is chosen by an address or by a name; choosing both is a misuse. -/
def target? (address : Option Nat) (name : Option String) : Option (Option Target) :=
  match address, name with
  | some _, some _ => none
  | some address, none => some (some (.address (UInt64.ofNat address)))
  | none, some name => some (some (.name name))
  | none, none => some none

/-- The command with the given settings, if they make sense for it. -/
def command? (environment : Option String) (name : String) (settings : Settings) :
    Option Command := do
  if name = "version" then return .version
  let input ← input? environment settings
  let limit := (count? settings "limit").getD usualLimit
  let output := text? settings "output"
  match name with
  | "top" => return .histogram { input, limit }
  | "tree" =>
    let usual : Locator := {}
    return .tree {
      input
      output
      threshold := count? settings "threshold"
      raw := (settings.lookup "raw").isSome
      depth := (count? settings "depth").getD usualDepth
      locator :=
        { entryStart := (text? settings "entry-prefix").getD usual.entryStart
          driverMark := (text? settings "driver-marker").getD usual.driverMark } }
  | "function" =>
    let target ← (← target? (count? settings "addr") (text? settings "name"))
    return .function { input, target, limit }
  | "report" =>
    let function ← target? (count? settings "function") (text? settings "function-name")
    return .report { input, output := output.getD usualReport, limit, function }
  | _ => none

/-! ### Arguments -/

/-- What a reason to stop early asks for. -/
def Stop.invocation : Stop → Invocation
  | misuse => .misuse
  | help => .help
  | version => .version

/-- The command `name` with the arguments behind it. -/
def readCommand (environment : Option String) (name : String) (arguments : List String) :
    Invocation :=
  match switchesOf? name with
  | none => .misuse
  | some switches =>
    match scanSwitches switches arguments [] with
    | .error stop => stop.invocation
    | .ok (_, _ :: _) => .misuse
    | .ok (settings, []) =>
      match command? environment name settings with
      | some command => .command command
      | none => .misuse

/-- Whether one can ask for help on something: on the program, on a command, or on asking for help
itself.  A command has no further commands below it. -/
def isTopic : List String → Bool
  | [] => true
  | [name] => name = "help" || (switchesOf? name).isSome
  | _ => false

/-- What arguments ask for, where `environment` is the dataset that the environment gives. -/
def read (environment : Option String) (arguments : List String) : Invocation :=
  match scanSwitches commonSwitches arguments [] with
  | .error stop => stop.invocation
  | .ok (_, []) => .misuse
  | .ok (_, "help" :: topic) => if isTopic topic then .help else .misuse
  | .ok (_, name :: rest) => readCommand environment name rest

/-- The version as the switch tells it. -/
def versionText : String := "vmstat-tree 0.1.0\n"

/-- How the program is used. -/
def helpText : String :=
  lines ["Usage: vmstat-tree [-v] <top|tree|function|report|version> [switches]", "",
    "  top       -i FILE [--limit N]",
    "  tree      -i FILE [-o FILE] [--threshold N] [--raw] [--depth N]",
    "            [--entry-prefix TEXT] [--driver-marker TEXT]",
    "  function  -i FILE (--addr N | --name TEXT) [--limit N]",
    "  report    -i FILE [-o FILE] [--limit N] [--function N | --function-name TEXT]",
    "  version"]

/-- What the program leaves behind. -/
structure Exit where
  /-- The exit code. -/
  code : UInt8
  /-- The text for the user. -/
  stdout : String := ""
  /-- The text about what went wrong. -/
  stderr : String := ""
  /-- The warnings on the way. -/
  warnings : List Warning := []

variable {m : Type → Type} [Monad m] [Disk m]

/-- Do what an invocation asks for. -/
def Invocation.run (invocation : Invocation) (generatedAt : String) : m Exit :=
  match invocation with
  | version => return { code := 0, stdout := versionText }
  | help => return { code := 0, stdout := helpText }
  | misuse => return { code := 2, stderr := helpText }
  | command c => do
    let (result, transcript) ← c.run generatedAt
    match result with
    | .ok _ =>
      return { code := 0, stdout := transcript.printed, warnings := transcript.warnings }
    | .error e =>
      return { code := 1, stdout := transcript.printed, stderr := e.report,
               warnings := transcript.warnings }

end CallProfile.CommandLine
