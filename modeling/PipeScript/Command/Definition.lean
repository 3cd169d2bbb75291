-- What is known about a command: what it is called, which parameters it takes, how each of
-- them is written, and whether data can flow in and out.
import PipeScript.Shell.Quote

namespace PipeScript

namespace Command

open Shell (Quoting)

/-- How a parameter is edited. -/
inductive ParamKind where
  | text
  | number
  | boolean
  | select
  | file
  deriving DecidableEq, Repr, Inhabited

/-- Where a parameter stands on the command line. -/
inductive Placement where
  /-- A bare flag, written when it is set. -/
  | switch
  /-- A flag that carries a value. -/
  | option
  /-- A value of its own, behind all flags. -/
  | positional
  deriving DecidableEq, Repr, Inhabited

/-- What commands are grouped by. -/
inductive Category where
  | text
  | files
  | network
  | system
  | control
  deriving DecidableEq, Repr, Inhabited

/-- A parameter of a command. -/
structure ParamSpec where
  name : String
  label : String
  kind : ParamKind
  /-- The flag as it is written; a pair of braces stands for the value. -/
  flagTemplate : String
  quoting : Quoting
  advanced : Bool
  required : Bool
  placeholder : Option String
  options : List String
  /-- A hint for editing; it is never written into a script. -/
  default : Option String
  description : Option String
  deriving DecidableEq, Repr, Inhabited

/-- A command. -/
structure Definition where
  id : String
  /-- What is written into the script. -/
  program : String
  label : String
  category : Category
  description : String
  /-- The parameters in the order in which they are edited. -/
  params : List ParamSpec
  examples : List String
  acceptsInput : Bool
  producesOutput : Bool
  deriving DecidableEq, Repr, Inhabited

namespace Category

/-- Every category, in the order in which they are listed. -/
def all : List Category := [.text, .files, .network, .system, .control]

theorem mem_all (category : Category) : category ∈ all := by
  cases category <;> simp [all]

def label : Category → String
  | .text => "Text Processing"
  | .files => "File Operations"
  | .network => "Network"
  | .system => "System"
  | .control => "Control Flow"

end Category

namespace ParamSpec

/-- A template that is nothing but the value. -/
def valueAlone : String := "\x7b\x7d"

/-! ## Making parameters -/

def make (name label : String) (kind : ParamKind) (flagTemplate : String)
    (quoting : Quoting) : ParamSpec where
  name := name
  label := label
  kind := kind
  flagTemplate := flagTemplate
  quoting := quoting
  advanced := false
  required := false
  placeholder := none
  options := []
  default := none
  description := none

/-- Free text, double-quoted, a value of its own unless it gets a flag. -/
def text (name label : String) : ParamSpec := make name label .text valueAlone .double

def file (name label : String) : ParamSpec := make name label .file valueAlone .double

def number (name label : String) : ParamSpec := make name label .number valueAlone .raw

def boolean (name label switch : String) : ParamSpec := make name label .boolean switch .raw

def select (name label : String) (options : List String) : ParamSpec :=
  { make name label .select valueAlone .raw with options }

def withFlag (spec : ParamSpec) (template : String) : ParamSpec :=
  { spec with flagTemplate := template }

def singleQuoted (spec : ParamSpec) : ParamSpec := { spec with quoting := .single }

def asAdvanced (spec : ParamSpec) : ParamSpec := { spec with advanced := true }

def asRequired (spec : ParamSpec) : ParamSpec := { spec with required := true }

def withPlaceholder (spec : ParamSpec) (text : String) : ParamSpec :=
  { spec with placeholder := some text }

def withDefault (spec : ParamSpec) (value : String) : ParamSpec :=
  { spec with default := some value }

def describe (spec : ParamSpec) (text : String) : ParamSpec :=
  { spec with description := some text }

/-! ## Templates -/

/-- Puts a value in the place of each pair of braces. -/
def fillChars (value : List Char) : List Char → List Char
  | '\x7b' :: '\x7d' :: rest => value ++ fillChars value rest
  | c :: rest => c :: fillChars value rest
  | [] => []

/-- The template with a value in the place of each pair of braces. -/
def fill (spec : ParamSpec) (value : String) : String :=
  String.ofList (fillChars value.toList spec.flagTemplate.toList)

/-- Whether a template has a place for a value. -/
def hasHole : List Char → Bool
  | '\x7b' :: '\x7d' :: _ => true
  | _ :: rest => hasHole rest
  | [] => false

/-- Where the parameter stands. One that takes no value is a switch, whatever its kind. -/
def placement (spec : ParamSpec) : Placement :=
  if spec.kind = .boolean ∨ hasHole spec.flagTemplate.toList = false then .switch
  else if spec.flagTemplate = valueAlone then .positional
  else .option

end ParamSpec

namespace Definition

/-- A command without parameters that takes and gives no data, written as its id. -/
def make (id label : String) (category : Category) (description : String) : Definition where
  id := id
  program := id
  label := label
  category := category
  description := description
  params := []
  examples := []
  acceptsInput := false
  producesOutput := false

def withParams (d : Definition) (params : List ParamSpec) : Definition := { d with params }

def withExamples (d : Definition) (examples : List String) : Definition :=
  { d with examples }

def withPipes (d : Definition) (acceptsInput producesOutput : Bool) : Definition :=
  { d with acceptsInput, producesOutput }

/-- The parameter with a name. -/
def findParam? (d : Definition) (name : String) : Option ParamSpec :=
  d.params.find? (·.name = name)

end Definition

end Command

end PipeScript
