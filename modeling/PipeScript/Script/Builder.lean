-- How a command with its parameter values becomes a fragment. Most commands are written by
-- their templates; a few have a layout of their own.
import PipeScript.Command.Definition
import PipeScript.Params
import PipeScript.Script.Fragment
import PipeScript.Text.Blank

namespace PipeScript

namespace Script

open Command (Definition ParamSpec)

/-- Writes a command with its parameter values. -/
abbrev Builder := Definition → Params → Fragment

/-! ## Commands by template -/

/-- What a parameter adds among the flags. -/
def flagPart (params : Params) (spec : ParamSpec) : Option String :=
  match spec.placement with
  | .switch => if params.flag spec.name then some spec.flagTemplate else none
  | .option =>
    (params.text? spec.name).map fun value => spec.fill (Shell.quote value spec.quoting)
  | .positional => none

/-- What a parameter adds behind the flags. -/
def valuePart (params : Params) (spec : ParamSpec) : Option String :=
  match spec.placement with
  | .positional => (params.text? spec.name).map fun value => Shell.quote value spec.quoting
  | .switch | .option => none

/-- The program, the flags in the order of declaration, then the values. -/
def templateParts (d : Definition) (params : Params) : List String :=
  d.program :: (d.params.filterMap (flagPart params) ++ d.params.filterMap (valuePart params))

/-- Writes a command as its parameters say. -/
def template : Builder := fun d params =>
  .command (" ".intercalate (templateParts d params)) d.producesOutput

/-! ## Commands with a layout of their own -/

/-- Two sets translate, a single one deletes. -/
def translate : Builder := fun d params =>
  let text :=
    match params.text? "set1", params.text? "set2" with
    | some source, some target =>
      d.program ++ " " ++ Shell.doubleQuote source ++ " " ++ Shell.doubleQuote target
    | some source, none => d.program ++ " -d " ++ Shell.doubleQuote source
    | none, _ => d.program
  .command text d.producesOutput

/-- What an option of a file search adds. -/
def searchPart (params : Params) (spec : ParamSpec) : Option String :=
  if spec.placement = .option then flagPart params spec else none

/-- The start path comes before the options, and nothing else is written. -/
def searchFiles : Builder := fun d params =>
  let path := (params.text? "path").map Shell.doubleQuote
  .command (" ".intercalate (d.program :: (path.toList ++ d.params.filterMap (searchPart params))))
    d.producesOutput

/-! ## Control flow -/

/-- A field without the blanks around it, if there is more than blanks. -/
def filled (field : Option String) : Option String :=
  match field with
  | none => none
  | some text => if Text.isBlank text then none else some (Text.trim text)

def ifBlock (condition : Option String) : Fragment :=
  match filled condition with
  | some condition => .block ("if " ++ condition ++ "; then\n  :\nfi")
  | none => .placeholder "# if: missing condition"

def forBlock (variableName values : Option String) : Fragment :=
  match filled variableName, filled values with
  | some variableName, some values =>
    .block ("for " ++ variableName ++ " in " ++ values ++ "; do\n  :\ndone")
  | _, _ => .placeholder "# for: missing variable or values"

def whileBlock (condition : Option String) : Fragment :=
  match filled condition with
  | some condition => .block ("while " ++ condition ++ "; do\n  :\ndone")
  | none => .placeholder "# while: missing condition"

def conditional : Builder := fun _ params => ifBlock (params.text? "condition")

def forLoop : Builder := fun _ params =>
  forBlock (params.text? "variable") (params.text? "values")

def whileLoop : Builder := fun _ params => whileBlock (params.text? "condition")

/-! ## Which builder writes what -/

/-- The built-in layout that goes by a name. -/
def builtinBuilder? (name : String) : Option Builder :=
  if name = "tr" then some translate
  else if name = "find" then some searchFiles
  else if name = "if" then some conditional
  else if name = "for" then some forLoop
  else if name = "while" then some whileLoop
  else none

/-- Builders by the id or program of the commands that they write. -/
structure Builders where
  find? : String → Option Builder

namespace Builders

def empty : Builders := ⟨fun _ => none⟩

/-- The built-in layouts, each under its name. -/
def builtin : Builders := ⟨builtinBuilder?⟩

def insert (builders : Builders) (name : String) (builder : Builder) : Builders :=
  ⟨fun other => if other = name then some builder else builders.find? other⟩

/-- The builder for a command: by its id, else by its program, else its template. -/
def builderFor (builders : Builders) (d : Definition) : Builder :=
  ((builders.find? d.id).or (builders.find? d.program)).getD template

end Builders

end Script

end PipeScript
