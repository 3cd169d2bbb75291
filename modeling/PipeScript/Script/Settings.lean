-- The settings of a script: its interpreter, how strictly it runs, and what its header tells
-- about it. They can be read from JSON, where every field may be left out and some have more
-- than one name.
import PipeScript.Json.Printer
import PipeScript.Json.Reader

namespace PipeScript

namespace Script

/-- The interpreter that a script names in its first line. -/
inductive Interpreter where
  | bash
  | sh
  | zsh
  deriving DecidableEq, Repr, Inhabited

namespace Interpreter

def all : List Interpreter := [.bash, .sh, .zsh]

def name : Interpreter → String
  | .bash => "bash"
  | .sh => "sh"
  | .zsh => "zsh"

/-- The interpreter with a name. -/
def ofName? (name : String) : Option Interpreter := all.find? (·.name = name)

/-- The interpreter with a name, for a reader of JSON. -/
def named (name : String) : Except ReadError Interpreter :=
  match ofName? name with
  | some interpreter => .ok interpreter
  | none => .error (.unknownVariant name (all.map Interpreter.name))

/-- Nothing but `null`. -/
def unit : Document → Except ReadError Unit
  | .scalar .null => .ok ()
  | document => Reader.mismatch "unit" document

/-- An interpreter: its name, or an object with the name as its only key and `null` as the
value. -/
def reader : Reader Interpreter
  | _, .scalar (.text pieces) => do named (← Reader.spell pieces)
  | room, .object ((key, value) :: more) closed => do
    let _ ← Reader.enter room
    let interpreter ← named (← Reader.spell key)
    unit value
    Reader.provided (more.isEmpty && closed) (.ok interpreter)
  | _, _ => .error .malformed

end Interpreter

/-- The settings of a script. -/
structure Settings where
  interpreter : Interpreter
  /-- The script ends when a command fails. -/
  exitOnError : Bool
  /-- The script ends when it uses a variable that is not set. -/
  exitOnUnset : Bool
  /-- A chain fails when any of its commands does. -/
  pipefail : Bool
  /-- The script shows every command before it runs. -/
  trace : Bool
  description : String
  author : String
  version : String
  deriving DecidableEq, Repr

namespace Settings

def default : Settings where
  interpreter := .bash
  exitOnError := true
  exitOnUnset := true
  pipefail := true
  trace := false
  description := ""
  author := ""
  version := "1.0.0"

instance : Inhabited Settings := ⟨default⟩

/-! ## JSON -/

/-- The settings as JSON, every field under its first name. -/
def toJson (s : Settings) : Json :=
  .object [("shebang_flavor", .string s.interpreter.name), ("set_e", .bool s.exitOnError),
    ("set_u", .bool s.exitOnUnset), ("set_pipefail", .bool s.pipefail), ("debug", .bool s.trace),
    ("description", .string s.description), ("author", .string s.author),
    ("version", .string s.version)]

/-- The fields that have been read. -/
structure Draft where
  interpreter : Option Interpreter := none
  exitOnError : Option Bool := none
  exitOnUnset : Option Bool := none
  pipefail : Option Bool := none
  trace : Option Bool := none
  description : Option String := none
  author : Option String := none
  version : Option String := none

/-- A field of settings. -/
inductive Field where
  | interpreter
  | exitOnError
  | exitOnUnset
  | pipefail
  | trace
  | description
  | author
  | version
  deriving DecidableEq, Repr

/-- The field that a key stands for. -/
def field? (key : String) : Option Field :=
  if key = "shebang_flavor" ∨ key = "shebang" ∨ key = "shebangFlavor" then some .interpreter
  else if key = "set_e" ∨ key = "setE" then some .exitOnError
  else if key = "set_u" ∨ key = "setU" then some .exitOnUnset
  else if key = "set_pipefail" ∨ key = "setPipefail" then some .pipefail
  else if key = "debug" then some .trace
  else if key = "description" then some .description
  else if key = "author" then some .author
  else if key = "version" then some .version
  else none

/-- Takes in one field. -/
def Draft.read (room : Nat) (d : Draft) (key : String) (value : Document) :
    Except ReadError Draft :=
  match field? key with
  | some .interpreter => do
    let interpreter ← Shape.once "shebang_flavor" d.interpreter (Interpreter.reader room value)
    return { d with interpreter }
  | some .exitOnError => do
    let exitOnError ← Shape.once "set_e" d.exitOnError (Reader.bool room value)
    return { d with exitOnError }
  | some .exitOnUnset => do
    let exitOnUnset ← Shape.once "set_u" d.exitOnUnset (Reader.bool room value)
    return { d with exitOnUnset }
  | some .pipefail => do
    let pipefail ← Shape.once "set_pipefail" d.pipefail (Reader.bool room value)
    return { d with pipefail }
  | some .trace => do
    let trace ← Shape.once "debug" d.trace (Reader.bool room value)
    return { d with trace }
  | some .description => do
    let description ← Shape.once "description" d.description (Reader.text room value)
    return { d with description }
  | some .author => do
    let author ← Shape.once "author" d.author (Reader.text room value)
    return { d with author }
  | some .version => do
    let version ← Shape.once "version" d.version (Reader.text room value)
    return { d with version }
  | none => do
    Reader.skip value
    return d

/-- The settings of a draft; what was not given has its default. -/
def Draft.settings (d : Draft) : Settings where
  interpreter := d.interpreter.getD default.interpreter
  exitOnError := d.exitOnError.getD default.exitOnError
  exitOnUnset := d.exitOnUnset.getD default.exitOnUnset
  pipefail := d.pipefail.getD default.pipefail
  trace := d.trace.getD default.trace
  description := d.description.getD default.description
  author := d.author.getD default.author
  version := d.version.getD default.version

def shape (room : Nat) : Shape Document Draft Settings where
  name := "struct ScriptConfig"
  fields := ["shebang_flavor", "set_e", "set_u", "set_pipefail", "debug", "description",
    "author", "version"]
  draft := {}
  read := Draft.read room
  finish := fun _ d => .ok d.settings

/-- Settings in a document. -/
def reader : Reader Settings := Shape.reader shape

/-- Settings in a JSON text. -/
def ofJsonText (text : String) : Except ReadError Settings := Reader.run reader text

end Settings

end Script

end PipeScript
