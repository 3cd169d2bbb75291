-- Compilers of pipelines: the commands they know and how they write them.
import PipeScript.Command.Catalog
import PipeScript.Pipeline.Check
import PipeScript.Script.Body
import PipeScript.Script.Generate
import PipeScript.Script.Header

namespace PipeScript

open Command (Definition Registry)
open Script (Builder Builders Settings Warning)

/-- A compiled pipeline. -/
structure Compiled where
  /-- The whole script. -/
  text : String
  /-- The ids of the nodes in the order of their fragments. -/
  order : List String
  /-- What is missing in the nodes. -/
  warnings : List Warning
  deriving DecidableEq, Repr, Inhabited

/-- The commands that are known, and how they are written. -/
structure Compiler where
  registry : Registry
  builders : Builders

namespace Compiler

/-- Knows the built-in commands. -/
def default : Compiler := ⟨.builtin, .builtin⟩

/-! ## Other commands -/

/-- Knows the commands of another registry instead; how commands are written stays. -/
def withRegistry (c : Compiler) (registry : Registry) : Compiler := { c with registry }

/-- Knows a known command under one more id. A name of a built-in layout brings the layout
with it. -/
def withAlias (c : Compiler) (name existing : String) : Compiler :=
  match c.registry.addAlias? name existing with
  | none => c
  | some registry =>
    match Script.builtinBuilder? existing with
    | some builder => ⟨registry, c.builders.insert name builder⟩
    | none => { c with registry }

/-- Knows a new command and how it is written. -/
def withCommand (c : Compiler) (d : Definition) (builder : Builder) : Compiler :=
  ⟨c.registry.register d, c.builders.insert d.id builder⟩

/-! ## Compilation -/

/-- The script of nodes in their order. -/
def assemble (c : Compiler) (nodes : List Node) (settings : Settings) : Compiled :=
  let parts := nodes.map fun node => node.generate c.registry c.builders
  { text := Script.wrap (Script.body (parts.map (·.1))) settings
    order := nodes.map (·.id)
    warnings := parts.flatMap (·.2) }

/-- The script of a pipeline, or what is wrong with its shape. -/
def tryCompile (c : Compiler) (p : Pipeline) (settings : Settings) : Except Flaw Compiled :=
  return c.assemble (← p.check) settings

/-- The text of the script of a pipeline, or a comment that tells what is wrong. -/
def compile (c : Compiler) (p : Pipeline) (settings : Settings) : String :=
  match c.tryCompile p settings with
  | .ok script => script.text
  | .error flaw => flaw.diagnostic

end Compiler

end PipeScript
