-- Pipelines: blocks that read, transform and write data, and the connections between them.
import PipeScript.Params

namespace PipeScript

/-- What a block of a pipeline does. -/
inductive NodeKind where
  /-- Reads a file into the pipeline. -/
  | input (path : String)
  /-- Writes what comes in to a file, or adds it to the end. -/
  | output (path : String) (append : Bool)
  /-- Runs a known command. -/
  | command (commandId : String) (params : Params)
  | conditional (condition : String)
  | forLoop (variableName : String) (values : String)
  | whileLoop (condition : String)
  deriving DecidableEq, Inhabited

/-- A block of a pipeline. -/
structure Node where
  id : String
  kind : NodeKind
  deriving DecidableEq, Inhabited

/-- A connection: what leaves `source` enters `target`. The handle tells apart several
connections that leave one block. -/
structure Edge where
  source : String
  target : String
  handle : Option String
  deriving DecidableEq, Repr, Inhabited

/-- Blocks and connections, both in the order in which they were declared. -/
structure Pipeline where
  nodes : List Node
  edges : List Edge
  deriving DecidableEq, Inhabited

namespace NodeKind

/-- The short name of a block's type. -/
def typeName : NodeKind → String
  | .input _ => "input"
  | .output _ _ => "output"
  | .command _ _ => "command"
  | .conditional _ => "conditional"
  | .forLoop _ _ | .whileLoop _ => "loop"

end NodeKind

namespace Pipeline

/-- The neighbouring pairs of a list. -/
def neighbours {α : Type} (items : List α) : List (α × α) := items.zip (items.drop 1)

/-- A pipeline that connects each node to the next one. -/
def chain (nodes : List Node) : Pipeline where
  nodes := nodes
  edges := (neighbours nodes).map fun pair => ⟨pair.1.id, pair.2.id, none⟩

end Pipeline

end PipeScript
