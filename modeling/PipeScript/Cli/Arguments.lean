-- The arguments of the command line: one path, switches, and options that take a value.
import PipeScript.Script.Settings

namespace PipeScript.Cli

open Script

/-- Everything that the command line can ask for. -/
structure Arguments where
  pipelinePath : Option String := none
  settingsPath : Option String := none
  outputPath : Option String := none
  listCommands : Bool := false
  interpreter : Option Interpreter := none
  noExitOnError : Bool := false
  noExitOnUnset : Bool := false
  noPipefail : Bool := false
  trace : Bool := false
  description : Option String := none
  author : Option String := none
  version : Option String := none
  /-- How often more detail was asked for. -/
  verbosity : Nat := 0
  deriving DecidableEq, Repr, Inhabited

/-- The options that take a value. -/
inductive ValueOption where
  | settings
  | output
  | interpreter
  | description
  | author
  | version
  deriving DecidableEq, Repr, Inhabited

/-- The switches that can be given once. -/
inductive Switch where
  | listCommands
  | noExitOnError
  | noExitOnUnset
  | noPipefail
  | trace
  deriving DecidableEq, Repr, Inhabited

inductive Flag where
  | value (option : ValueOption)
  | switch (switch : Switch)
  | verbose
  | help
  | version
  deriving DecidableEq, Repr, Inhabited

/-- Why nothing is compiled. -/
inductive Stop where
  | refused
  | help
  | version
  deriving DecidableEq, Repr, Inhabited

/-! ## Names -/

def Flag.ofLong? (name : String) : Option Flag :=
  [("config", .value .settings), ("output", .value .output),
    ("list-commands", .switch .listCommands), ("shebang", .value .interpreter),
    ("no-set-e", .switch .noExitOnError), ("no-set-u", .switch .noExitOnUnset),
    ("no-pipefail", .switch .noPipefail), ("debug", .switch .trace),
    ("description", .value .description), ("author", .value .author),
    ("version-tag", .value .version), ("verbose", Flag.verbose), ("help", .help),
    ("version", .version)].lookup name

def Flag.ofShort? (letter : Char) : Option Flag :=
  [('c', .value .settings), ('o', .value .output), ('v', Flag.verbose), ('h', .help),
    ('V', .version)].lookup letter

/-! ## Setting -/

/-- Gives a field its value, once. -/
def setOnce {α : Type} (field : Option α) (value : α) : Except Stop (Option α) :=
  if field.isSome then .error .refused else .ok (some value)

/-- Turns a switch on, once. -/
def turnOn (switch : Bool) : Except Stop Bool := if switch then .error .refused else .ok true

namespace Arguments

def setPath (a : Arguments) (path : String) : Except Stop Arguments := do
  let pipelinePath ← setOnce a.pipelinePath path
  return { a with pipelinePath }

def setValue (a : Arguments) (option : ValueOption) (value : String) :
    Except Stop Arguments := do
  match option with
  | .settings =>
    let settingsPath ← setOnce a.settingsPath value
    return { a with settingsPath }
  | .output =>
    let outputPath ← setOnce a.outputPath value
    return { a with outputPath }
  | .interpreter =>
    match Interpreter.ofName? value with
    | none => throw .refused
    | some found =>
      let interpreter ← setOnce a.interpreter found
      return { a with interpreter }
  | .description =>
    let description ← setOnce a.description value
    return { a with description }
  | .author =>
    let author ← setOnce a.author value
    return { a with author }
  | .version =>
    let version ← setOnce a.version value
    return { a with version }

def setSwitch (a : Arguments) (switch : Switch) : Except Stop Arguments := do
  match switch with
  | .listCommands =>
    let listCommands ← turnOn a.listCommands
    return { a with listCommands }
  | .noExitOnError =>
    let noExitOnError ← turnOn a.noExitOnError
    return { a with noExitOnError }
  | .noExitOnUnset =>
    let noExitOnUnset ← turnOn a.noExitOnUnset
    return { a with noExitOnUnset }
  | .noPipefail =>
    let noPipefail ← turnOn a.noPipefail
    return { a with noPipefail }
  | .trace =>
    let trace ← turnOn a.trace
    return { a with trace }

end Arguments

/-! ## Reading -/

/-- What has been read so far. -/
structure Reading where
  arguments : Arguments := {}
  /-- The option that waits for its value. -/
  waiting : Option ValueOption := none
  /-- Whether everything that follows is a path. -/
  pathsOnly : Bool := false

namespace Reading

/-- A flag that takes no value. -/
def plainFlag (r : Reading) : Flag → Except Stop Reading
  | .value option => .ok { r with waiting := some option }
  | .switch switch => return { r with arguments := ← r.arguments.setSwitch switch }
  | .verbose =>
    .ok { r with arguments := { r.arguments with verbosity := r.arguments.verbosity + 1 } }
  | .help => .error .help
  | .version => .error .version

/-- A long flag, maybe with its value after an equals sign. -/
def long (r : Reading) (text : List Char) : Except Stop Reading :=
  let name := text.takeWhile (· ≠ '=')
  match Flag.ofLong? (String.ofList name) with
  | none => .error .refused
  | some flag =>
    match text.drop name.length, flag with
    | [], _ => r.plainFlag flag
    | _ :: value, .value option =>
      return { r with arguments := ← r.arguments.setValue option (String.ofList value) }
    | _ :: _, _ => .error .refused

/-- Short flags in a row. One that takes a value takes the rest of the row, if there is any. -/
def short (r : Reading) : List Char → Except Stop Reading
  | [] => .ok r
  | letter :: rest =>
    match Flag.ofShort? letter, rest with
    | none, _ => .error .refused
    | some (.value option), '=' :: value =>
      return { r with arguments := ← r.arguments.setValue option (String.ofList value) }
    | some (.value option), c :: value =>
      return { r with arguments := ← r.arguments.setValue option (String.ofList (c :: value)) }
    | some flag, _ => do short (← r.plainFlag flag) rest

/-- One more argument. What starts with a dash is never the value of the option before it. -/
def next (r : Reading) (argument : String) : Except Stop Reading :=
  if r.pathsOnly then return { r with arguments := ← r.arguments.setPath argument }
  else
    match argument.toList, r.waiting with
    | '-' :: _ :: _, some _ => .error .refused
    | ['-', '-'], none => .ok { r with pathsOnly := true }
    | '-' :: '-' :: text, none => r.long text
    | '-' :: c :: text, none => r.short (c :: text)
    | _, some option =>
      return { r with arguments := ← r.arguments.setValue option argument, waiting := none }
    | _, none => return { r with arguments := ← r.arguments.setPath argument }

end Reading

/-- Reads the arguments. A path is needed, unless the commands are to be listed. -/
def Arguments.ofList (arguments : List String) : Except Stop Arguments := do
  let r ← arguments.foldlM Reading.next {}
  if r.waiting.isSome then throw .refused
  else if r.arguments.pipelinePath.isNone ∧ r.arguments.listCommands = false then throw .refused
  else return r.arguments

/-- The settings with what the command line changes in them. -/
def Arguments.apply (a : Arguments) (settings : Settings) : Settings where
  interpreter := a.interpreter.getD settings.interpreter
  exitOnError := settings.exitOnError && !a.noExitOnError
  exitOnUnset := settings.exitOnUnset && !a.noExitOnUnset
  pipefail := settings.pipefail && !a.noPipefail
  trace := settings.trace || a.trace
  description := a.description.getD settings.description
  author := a.author.getD settings.author
  version := a.version.getD settings.version

end PipeScript.Cli
