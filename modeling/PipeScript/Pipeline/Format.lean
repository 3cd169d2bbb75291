-- Pipelines as JSON: nodes with a tagged kind, and edges.
import PipeScript.Json.Printer
import PipeScript.Json.Tagged
import PipeScript.Pipeline.Basic

namespace PipeScript

/-! ## Kinds -/

namespace NodeKind

/-- What the tag of a kind may be. -/
inductive Tag where
  | input
  | output
  | command
  | conditional
  | loop
  deriving DecidableEq, Repr, Inhabited

/-- What the tag of a loop may be. -/
inductive LoopTag where
  | forLoop
  | whileLoop
  deriving DecidableEq, Repr, Inhabited

namespace Tag

def all : List Tag := [.input, .output, .command, .conditional, .loop]

def name : Tag → String
  | .input => "input"
  | .output => "output"
  | .command => "command"
  | .conditional => "conditional"
  | .loop => "loop"

end Tag

namespace LoopTag

def all : List LoopTag := [.forLoop, .whileLoop]

def name : LoopTag → String
  | .forLoop => "for"
  | .whileLoop => "while"

end LoopTag

/-- The parameters in a table as JSON, in the order of their names. -/
def serializeParams (params : Params.Stored) : Json := .object params.sorted

theorem serializeParams_congr {s s' : Params.Stored} (h : s ≈ s') :
    serializeParams s = serializeParams s' :=
  congrArg Json.object (Params.Stored.sorted_congr h)

/-- Parameters as JSON. -/
def paramsToJson (params : Params) : Json :=
  params.lift serializeParams fun _ _ => serializeParams_congr

theorem paramsToJson_eq (params : Params) : paramsToJson params = .object params.sorted := by
  induction params using Quotient.ind with
  | _ s => rfl

/-- A kind as JSON: the tag first, then the fields, with parameters as `writeParams` has
them. -/
def toJson (writeParams : Params → Json) : NodeKind → Json
  | .input path => .object [("type", .string "input"), ("path", .string path)]
  | .output path append =>
    .object [("type", .string "output"), ("path", .string path), ("append", .bool append)]
  | .command commandId params =>
    .object [("type", .string "command"), ("command_id", .string commandId),
      ("params", writeParams params)]
  | .conditional condition =>
    .object [("type", .string "conditional"), ("condition", .string condition)]
  | .forLoop variableName values =>
    .object [("type", .string "loop"), ("loop_type", .string "for"),
      ("variable", .string variableName), ("values", .string values)]
  | .whileLoop condition =>
    .object [("type", .string "loop"), ("loop_type", .string "while"),
      ("condition", .string condition)]

/-- The parameter values of a command. -/
def keptParams (value : Json) : Except ReadError Params :=
  return .ofList (← Kept.object value)

/-- A loop from its fields. -/
def loopOfKept (kept : Kept) : Except ReadError NodeKind := do
  let (tag, kept) ← Kept.split "loop_type" (Kept.keptTag LoopTag.all LoopTag.name) kept
  match tag with
  | .forLoop =>
    let shape := Shape.two "struct variant LoopKind::For" Kept.ignore
      "variable" Kept.text "values" Kept.text
    let (variableName, values) ← shape.ofKept kept
    return .forLoop variableName values
  | .whileLoop =>
    let shape := Shape.one "struct variant LoopKind::While" Kept.ignore "condition" Kept.text
    return .whileLoop (← shape.ofKept kept)

/-- A kind from its tag and its other fields. -/
def ofKept (tag : Tag) (kept : Kept) : Except ReadError NodeKind := do
  match tag with
  | .input =>
    let shape := Shape.one "struct variant NodeKind::Input" Kept.ignore "path" Kept.text
    return .input (← shape.ofKept kept)
  | .output =>
    let shape := Shape.two "struct variant NodeKind::Output" Kept.ignore
      "path" Kept.text "append" Kept.bool
    let (path, append) ← shape.ofKept kept
    return .output path append
  | .command =>
    let shape := Shape.two "struct variant NodeKind::Command" Kept.ignore
      "command_id" Kept.text "params" keptParams
    let (commandId, params) ← shape.ofKept kept
    return .command commandId params
  | .conditional =>
    let shape := Shape.one "struct variant NodeKind::Conditional" Kept.ignore
      "condition" Kept.text
    return .conditional (← shape.ofKept kept)
  | .loop => loopOfKept kept

/-- A kind in a document. -/
def reader : Reader NodeKind := fun room document => do
  let (tag, kept) ← Kept.reader "type" "internally tagged enum NodeKind"
    (Kept.documentTag Tag.all Tag.name) room document
  ofKept tag kept

end NodeKind

/-! ## Nodes and edges -/

namespace Node

def toJson (writeParams : Params → Json) (node : Node) : Json :=
  .object [("id", .string node.id), ("kind", node.kind.toJson writeParams)]

/-- A node in a document. -/
def reader : Reader Node := fun room document => do
  let shape := fun room => Shape.two "struct Node" Reader.skip
    "id" (Reader.text room) "kind" (NodeKind.reader room)
  let (id, kind) ← Shape.reader shape room document
  return ⟨id, kind⟩

end Node

namespace Edge

def toJson (edge : Edge) : Json :=
  .object [("source", .string edge.source), ("target", .string edge.target),
    ("handle", match edge.handle with
      | some handle => .string handle
      | none => .null)]

/-- The fields that have been read. -/
structure Draft where
  source : Option String := none
  target : Option String := none
  handle : Option (Option String) := none

/-- Takes in one field. -/
def Draft.read (room : Nat) (d : Draft) (key : String) (value : Document) :
    Except ReadError Draft := do
  if key = "source" then
    let source ← Shape.once "source" d.source (Reader.text room value)
    return { d with source }
  else if key = "target" then
    let target ← Shape.once "target" d.target (Reader.text room value)
    return { d with target }
  else if key = "handle" then
    let handle ← Shape.once "handle" d.handle (Reader.optional Reader.text room value)
    return { d with handle }
  else
    Reader.skip value
    return d

def shape (room : Nat) : Shape Document Draft Edge where
  name := "struct Edge"
  fields := ["source", "target", "handle"]
  draft := {}
  read := Draft.read room
  finish := fun absent d => do
    let source ← Shape.required absent 0 "source" d.source
    let target ← Shape.required absent 1 "target" d.target
    return ⟨source, target, d.handle.getD none⟩

/-- An edge in a document. -/
def reader : Reader Edge := Shape.reader shape

end Edge

/-! ## Pipelines -/

namespace Pipeline

/-- A pipeline as JSON, with the parameters of the node at each place as `writeParams` has
them. -/
def toJsonBy (writeParams : Nat → Params → Json) (p : Pipeline) : Json :=
  .object [("nodes", .array (p.nodes.mapIdx fun place => Node.toJson (writeParams place))),
    ("edges", .array (p.edges.map Edge.toJson))]

def toJson (p : Pipeline) : Json := p.toJsonBy fun _ => NodeKind.paramsToJson

theorem toJson_eq (p : Pipeline) :
    p.toJson = .object [("nodes", .array (p.nodes.map (Node.toJson NodeKind.paramsToJson))),
      ("edges", .array (p.edges.map Edge.toJson))] := by
  have hnodes : p.nodes.mapIdx (fun _ => Node.toJson NodeKind.paramsToJson) =
      p.nodes.map (Node.toJson NodeKind.paramsToJson) := List.mapIdx_eq_iff.mpr (by simp)
  rw [toJson, toJsonBy, hnodes]

/-- The JSON text of a pipeline, on one line. -/
def toJsonText (p : Pipeline) : String := p.toJson.compact

/-- A pipeline in a document. -/
def reader : Reader Pipeline := fun room document => do
  let shape := fun room => Shape.two "struct PipelineGraph" Reader.skip
    "nodes" (Reader.list Node.reader room) "edges" (Reader.list Edge.reader room)
  let (nodes, edges) ← Shape.reader shape room document
  return ⟨nodes, edges⟩

/-- A pipeline in a JSON text. -/
def ofJsonText (text : String) : Except ReadError Pipeline := Reader.run reader text

end Pipeline

end PipeScript
