-- What the command line does: it lists the commands, or it reads a pipeline, compiles it and
-- prints or saves the script.
import PipeScript.Canvas.Format
import PipeScript.Cli.Arguments
import PipeScript.Storage

namespace PipeScript

/-! ## The list of commands -/

namespace Command

/-- Fills a text up with blanks to a width. -/
def padded (width : Nat) (text : String) : String :=
  text ++ String.ofList (List.replicate (width - text.length) ' ')

/-- Which ends of a pipe a command can be on. -/
def Definition.ends (d : Definition) : String :=
  match d.acceptsInput, d.producesOutput with
  | true, true => "in/out"
  | false, true => "out"
  | true, false => "in"
  | false, false => "-"

def ParamSpec.listing (spec : ParamSpec) : String :=
  "      " ++ (if spec.required then "*" else " ") ++ padded 16 spec.name ++ " "
    ++ spec.flagTemplate ++ "\n"

def Definition.listing (d : Definition) : String :=
  "  " ++ padded 8 d.id ++ " " ++ padded 7 d.ends ++ " " ++ d.description ++ "\n"
    ++ String.join (d.params.map ParamSpec.listing)

/-- The commands by category, with an empty line after each. -/
def Registry.listing (registry : Registry) : String :=
  String.join (registry.byCategory.map fun group =>
    group.1.label ++ "\n" ++ String.join (group.2.map Definition.listing) ++ "\n")

end Command

namespace Cli

open Script

/-! ## Running -/

/-- What a run prints and the code it ends with. -/
structure Report where
  exitCode : Nat
  output : String := ""
  errors : String := ""
  deriving DecidableEq, Repr, Inhabited

/-- The report of a run that fails. -/
def Report.failure (message : String) : Report :=
  { exitCode := 1, errors := "\nError: " ++ message ++ "\n" }

variable {m : Type → Type} [Monad m]

/-- The pipeline in a file. -/
def readPipeline (storage : Storage m) (path : String) : m (Except String Pipeline) := do
  match ← storage.read path with
  | .error reason =>
    return .error ("Failed to read pipeline file '" ++ path ++ "': " ++ reason)
  | .ok text => return (Canvas.load text).mapError fun e => "Failed to load pipeline: " ++ e.message

/-- The settings in a file, or the usual ones. -/
def readSettings (storage : Storage m) : Option String → m (Except String Settings)
  | none => return .ok .default
  | some path => do
    match ← storage.read path with
    | .error reason =>
      return .error ("Failed to read config file '" ++ path ++ "': " ++ reason)
    | .ok text =>
      return (Settings.ofJsonText text).mapError fun e =>
        "Failed to parse config JSON: " ++ e.message

/-- Prints a script or saves it. -/
def deliver (storage : Storage m) (script : Compiled) : Option String → m Report
  | none => return { exitCode := 0, output := script.text }
  | some path => do
    match ← script.save storage path with
    | .error e => return .failure e.message
    | .ok () =>
      return { exitCode := 0
               errors := "Wrote " ++ path ++ " (" ++ toString script.order.length ++ " nodes, "
                 ++ toString script.warnings.length ++ " warnings)\n" }

/-- Compiles the pipeline at a path. -/
def compileFile (storage : Storage m) (arguments : Arguments) (path : String) : m Report := do
  match ← readPipeline storage path with
  | .error message => return .failure message
  | .ok pipeline =>
    match ← readSettings storage arguments.settingsPath with
    | .error message => return .failure message
    | .ok settings =>
      match Compiler.default.tryCompile pipeline (arguments.apply settings) with
      | .error flaw => return { exitCode := 2, output := flaw.diagnostic ++ "\n" }
      | .ok script => deliver storage script arguments.outputPath

/-- Does what the arguments ask for. -/
def run (storage : Storage m) (arguments : Arguments) : m Report :=
  if arguments.listCommands then
    return { exitCode := 0, output := Command.Registry.builtin.listing }
  else
    match arguments.pipelinePath with
    | some path => compileFile storage arguments path
    | none => return .failure "A pipeline JSON path is required."

end Cli

end PipeScript
