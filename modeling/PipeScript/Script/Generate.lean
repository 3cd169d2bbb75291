-- What a node becomes: its fragment, and warnings for what is missing in it.
import PipeScript.Command.Registry
import PipeScript.Pipeline.Basic
import PipeScript.Script.Builder

namespace PipeScript

open Command (Definition ParamSpec Registry)
open Script (Fragment Warning Builders)

namespace Params

/-- Whether a parameter that is required has no value. -/
def lacks (params : Params) (spec : ParamSpec) : Bool :=
  spec.required &&
    if spec.kind = .boolean then !params.flag spec.name
    else (params.text? spec.name).isNone

end Params

namespace Node

/-- Warns of a field that has only blanks. -/
def blankField (node : Node) (name value : String) : List Warning :=
  if Text.isBlank value then [.missingParameter node.id name] else []

/-- The required parameters that have no value, in the order of declaration. -/
def missingRequired (node : Node) (d : Definition) (params : Params) : List Warning :=
  (d.params.filter params.lacks).map fun spec => .missingParameter node.id spec.name

/-- The fragment of a node and its warnings. -/
def generate (node : Node) (registry : Registry) (builders : Builders) :
    Fragment × List Warning :=
  match node.kind with
  | .input path =>
    (if Text.isBlank path then .placeholder "# input: missing path"
      else .command ("cat " ++ Shell.doubleQuote path) true,
      node.blankField "path" path)
  | .output path append =>
    (if Text.isBlank path then .placeholder "# output: missing path"
      else .redirect path append,
      node.blankField "path" path)
  | .conditional condition =>
    (Script.ifBlock (some condition), node.blankField "condition" condition)
  | .forLoop variableName values =>
    (Script.forBlock (some variableName) (some values),
      node.blankField "variable" variableName ++ node.blankField "values" values)
  | .whileLoop condition =>
    (Script.whileBlock (some condition), node.blankField "condition" condition)
  | .command commandId params =>
    match registry.lookup commandId with
    | none =>
      (.placeholder ("# Unknown command: " ++ commandId),
        [.unknownCommand node.id commandId])
    | some d => (builders.builderFor d d params, node.missingRequired d params)

end Node

end PipeScript
