-- The canvas: a pipeline as an editor keeps it, with positions and with the fields of every
-- type of block side by side.
import PipeScript.Pipeline.Basic

namespace PipeScript

namespace Canvas

/-- The fields of a block. Which of them count depends on its type. -/
structure Data where
  path : Option String := none
  append : Option Bool := none
  commandId : Option String := none
  /-- What the block shows; it stands in for a missing command. -/
  label : Option String := none
  loopType : Option String := none
  params : Option Params := none
  deriving DecidableEq, Inhabited

/-- Where a block lies. Compilation takes no notice of it. -/
structure Position where
  x : Binary64
  y : Binary64
  deriving DecidableEq, Repr, Inhabited

/-- A block on the canvas. -/
structure Block where
  id : String
  blockType : String
  position : Option Position
  data : Data
  deriving DecidableEq, Inhabited

/-- A connection on the canvas. -/
structure Connection where
  id : Option String
  source : String
  target : String
  sourceHandle : Option String
  deriving DecidableEq, Repr, Inhabited

end Canvas

/-- What an editor exports. -/
structure Canvas where
  blocks : List Canvas.Block
  connections : List Canvas.Connection
  deriving DecidableEq, Inhabited

/-- Why a canvas is not a pipeline. -/
inductive CanvasError where
  /-- Its text cannot be read. -/
  | unreadable (reason : String)
  | unknownType (block typeName : String)
  | missingField (block field : String)
  deriving DecidableEq, Repr, Inhabited

def CanvasError.message : CanvasError → String
  | .unreadable reason => "Failed to parse pipeline JSON: " ++ reason
  | .unknownType block typeName =>
    "Node '" ++ block ++ "' has an unsupported node type: '" ++ typeName ++ "'"
  | .missingField block field =>
    "Node '" ++ block ++ "' is missing field '" ++ field ++ "'"

namespace Canvas

/-! ## From a canvas to a pipeline -/

/-- A parameter as text: a string, or a number; anything else is empty. -/
def textParam (params : Option Params) (name : String) : String :=
  match params.bind (·.get? name) with
  | some (.string s) => s
  | some (.number n) => n.text
  | _ => ""

/-- The command of a block: its id if that is not empty, else its label. -/
def Data.command? (data : Data) : Option String :=
  (data.commandId.filter fun id => !id.isEmpty).or data.label

/-- What a block does. -/
def Block.kind (b : Block) : Except CanvasError NodeKind :=
  if b.blockType = "input" then .ok (.input (b.data.path.getD ""))
  else if b.blockType = "output" then
    .ok (.output (b.data.path.getD "") (b.data.append.getD false))
  else if b.blockType = "conditional" then
    .ok (.conditional (textParam b.data.params "condition"))
  else if b.blockType = "loop" then
    let loopType := b.data.loopType.getD "for"
    if loopType = "for" then
      .ok (.forLoop (textParam b.data.params "variable") (textParam b.data.params "values"))
    else if loopType = "while" then .ok (.whileLoop (textParam b.data.params "condition"))
    else .error (.unknownType b.id ("loop/" ++ loopType))
  else if b.blockType = "command" then
    match b.data.command? with
    | some command => .ok (.command command (b.data.params.getD .empty))
    | none => .error (.missingField b.id "commandId")
  else .error (.unknownType b.id b.blockType)

def Block.toNode (b : Block) : Except CanvasError Node := return ⟨b.id, ← b.kind⟩

def Connection.toEdge (c : Connection) : Edge := ⟨c.source, c.target, c.sourceHandle⟩

/-- The pipeline on a canvas; the first block that is not a node tells why there is none. -/
def toPipeline (c : Canvas) : Except CanvasError Pipeline :=
  return ⟨← c.blocks.mapM Block.toNode, c.connections.map Connection.toEdge⟩

/-! ## From a pipeline to a canvas -/

/-- Parameters that are all texts. -/
def textParams (pairs : List (String × String)) : Params :=
  .ofList (pairs.map fun pair => (pair.1, .string pair.2))

/-- The fields of a block that does this. -/
def Data.ofKind : NodeKind → Data
  | .input path => { path := some path }
  | .output path append => { path := some path, append := some append }
  | .command commandId params =>
    { commandId := some commandId, label := some commandId, params := some params }
  | .conditional condition => { params := some (textParams [("condition", condition)]) }
  | .forLoop variableName values =>
    { loopType := some "for"
      params := some (textParams [("variable", variableName), ("values", values)]) }
  | .whileLoop condition =>
    { loopType := some "while", params := some (textParams [("condition", condition)]) }

/-- The block of a node. It has no position. -/
def Block.ofNode (node : Node) : Block :=
  ⟨node.id, node.kind.typeName, none, .ofKind node.kind⟩

/-- The connection of an edge, with the place of the edge as its id. -/
def Connection.ofEdge (place : Nat) (edge : Edge) : Connection :=
  ⟨some ("e" ++ String.ofList (Nat.toDigits 10 place)), edge.source, edge.target, edge.handle⟩

/-- The canvas of a pipeline. -/
def ofPipeline (p : Pipeline) : Canvas :=
  ⟨p.nodes.map Block.ofNode, p.edges.mapIdx Connection.ofEdge⟩

end Canvas

end PipeScript
