-- The canvas as JSON text. Fields without a value are not written; some fields can be read
-- under two names.
import PipeScript.Canvas.Basic
import PipeScript.Json.Printer
import PipeScript.Json.Tagged

namespace PipeScript

namespace Canvas

/-- A member that is written only if there is a value. -/
def member {α : Type} (key : String) (toJson : α → Json) (value : Option α) :
    List (String × Json) :=
  (value.map fun v => (key, toJson v)).toList

/-! ## Fields of a block -/

namespace Data

/-- The parameters in a table as JSON, in the order of their names, if there is a table. -/
def serializeSorted (params : Option Params.Stored) : Json :=
  match params.map Params.Stored.sorted with
  | some members => .object members
  | none => .null

theorem serializeSorted_congr {s s' : Params.Stored} (h : s ≈ s') :
    serializeSorted (some s) = serializeSorted (some s') :=
  congrArg Json.object (Params.Stored.sorted_congr h)

/-- Parameters as JSON. -/
def paramsToJson (params : Params) : Json :=
  params.lift (fun s => serializeSorted (some s)) fun _ _ => serializeSorted_congr

theorem paramsToJson_eq (params : Params) : paramsToJson params = .object params.sorted := by
  induction params using Quotient.ind with
  | _ s => rfl

/-- The fields as JSON, with parameters as `writeParams` has them. -/
def toJson (writeParams : Params → Json) (d : Data) : Json :=
  .object (member "path" .string d.path ++ member "append" .bool d.append
    ++ member "commandId" .string d.commandId ++ member "label" .string d.label
    ++ member "loopType" .string d.loopType ++ member "params" writeParams d.params)

/-- The fields that have been read. -/
structure Draft where
  path : Option (Option String) := none
  append : Option (Option Bool) := none
  commandId : Option (Option String) := none
  label : Option (Option String) := none
  loopType : Option (Option String) := none
  params : Option (Option Params) := none

/-- Takes in one field. -/
def Draft.read (room : Nat) (d : Draft) (key : String) (value : Document) :
    Except ReadError Draft := do
  if key = "path" then
    let path ← Shape.once "path" d.path (Reader.optional Reader.text room value)
    return { d with path }
  else if key = "append" then
    let append ← Shape.once "append" d.append (Reader.optional Reader.bool room value)
    return { d with append }
  else if key = "command_id" ∨ key = "commandId" then
    let commandId ← Shape.once "command_id" d.commandId (Reader.optional Reader.text room value)
    return { d with commandId }
  else if key = "label" then
    let label ← Shape.once "label" d.label (Reader.optional Reader.text room value)
    return { d with label }
  else if key = "loop_type" ∨ key = "loopType" then
    let loopType ← Shape.once "loop_type" d.loopType (Reader.optional Reader.text room value)
    return { d with loopType }
  else if key = "params" then
    let params ← Shape.once "params" d.params (Reader.optional Params.reader room value)
    return { d with params }
  else
    Reader.skip value
    return d

/-- The fields of a draft; every one of them may be missing. -/
def Draft.data (d : Draft) : Data where
  path := d.path.getD none
  append := d.append.getD none
  commandId := d.commandId.getD none
  label := d.label.getD none
  loopType := d.loopType.getD none
  params := d.params.getD none

def shape (room : Nat) : Shape Document Draft Data where
  name := "struct UiNodeData"
  fields := ["path", "append", "command_id", "label", "loop_type", "params"]
  draft := {}
  read := Draft.read room
  finish := fun _ d => .ok d.data

def reader : Reader Data := Shape.reader shape

end Data

/-! ## Blocks -/

namespace Position

def toJson (p : Position) : Json :=
  .object [("x", .number (.float p.x)), ("y", .number (.float p.y))]

def reader : Reader Position := fun room document => do
  let shape := fun room => Shape.two "struct UiPosition" Reader.skip
    "x" (Reader.float room) "y" (Reader.float room)
  let (x, y) ← Shape.reader shape room document
  return ⟨x, y⟩

end Position

namespace Block

def toJson (writeParams : Params → Json) (b : Block) : Json :=
  .object ([("id", .string b.id), ("type", .string b.blockType)]
    ++ member "position" Position.toJson b.position ++ [("data", b.data.toJson writeParams)])

/-- The fields that have been read. -/
structure Draft where
  id : Option String := none
  blockType : Option String := none
  position : Option (Option Position) := none
  data : Option Data := none

/-- Takes in one field. -/
def Draft.read (room : Nat) (d : Draft) (key : String) (value : Document) :
    Except ReadError Draft := do
  if key = "id" then
    let id ← Shape.once "id" d.id (Reader.text room value)
    return { d with id }
  else if key = "type" then
    let blockType ← Shape.once "type" d.blockType (Reader.text room value)
    return { d with blockType }
  else if key = "position" then
    let position ← Shape.once "position" d.position
      (Reader.optional Position.reader room value)
    return { d with position }
  else if key = "data" then
    let data ← Shape.once "data" d.data (Data.reader room value)
    return { d with data }
  else
    Reader.skip value
    return d

/-- A block needs an id; without a type it is a command. -/
def shape (room : Nat) : Shape Document Draft Block where
  name := "struct UiNode"
  fields := ["id", "type", "position", "data"]
  draft := {}
  read := Draft.read room
  finish := fun absent d => do
    let id ← Shape.required absent 0 "id" d.id
    return ⟨id, d.blockType.getD "command", d.position.getD none, d.data.getD {}⟩

def reader : Reader Block := Shape.reader shape

end Block

/-! ## Connections -/

namespace Connection

def toJson (c : Connection) : Json :=
  .object (member "id" .string c.id
    ++ [("source", .string c.source), ("target", .string c.target)]
    ++ member "sourceHandle" .string c.sourceHandle)

/-- The fields that have been read. -/
structure Draft where
  id : Option (Option String) := none
  source : Option String := none
  target : Option String := none
  sourceHandle : Option (Option String) := none

/-- Takes in one field. -/
def Draft.read (room : Nat) (d : Draft) (key : String) (value : Document) :
    Except ReadError Draft := do
  if key = "id" then
    let id ← Shape.once "id" d.id (Reader.optional Reader.text room value)
    return { d with id }
  else if key = "source" then
    let source ← Shape.once "source" d.source (Reader.text room value)
    return { d with source }
  else if key = "target" then
    let target ← Shape.once "target" d.target (Reader.text room value)
    return { d with target }
  else if key = "source_handle" ∨ key = "sourceHandle" then
    let sourceHandle ← Shape.once "source_handle" d.sourceHandle
      (Reader.optional Reader.text room value)
    return { d with sourceHandle }
  else
    Reader.skip value
    return d

def shape (room : Nat) : Shape Document Draft Connection where
  name := "struct UiEdge"
  fields := ["id", "source", "target", "source_handle"]
  draft := {}
  read := Draft.read room
  finish := fun absent d => do
    let source ← Shape.required absent 1 "source" d.source
    let target ← Shape.required absent 2 "target" d.target
    return ⟨d.id.getD none, source, target, d.sourceHandle.getD none⟩

def reader : Reader Connection := Shape.reader shape

end Connection

/-! ## The whole canvas -/

/-- A canvas as JSON, with the parameters of the block at each place as `writeParams` has
them. -/
def toJsonBy (writeParams : Nat → Params → Json) (c : Canvas) : Json :=
  .object [("nodes", .array (c.blocks.mapIdx fun place => Block.toJson (writeParams place))),
    ("edges", .array (c.connections.map Connection.toJson))]

def toJson (c : Canvas) : Json := c.toJsonBy fun _ => Data.paramsToJson

theorem toJson_eq (c : Canvas) :
    c.toJson = .object [("nodes", .array (c.blocks.map (Block.toJson Data.paramsToJson))),
      ("edges", .array (c.connections.map Connection.toJson))] := by
  have hblocks : c.blocks.mapIdx (fun _ => Block.toJson Data.paramsToJson) =
      c.blocks.map (Block.toJson Data.paramsToJson) := List.mapIdx_eq_iff.mpr (by simp)
  rw [toJson, toJsonBy, hblocks]

/-- The JSON text of a canvas, over several lines. -/
def toJsonText (c : Canvas) : String := c.toJson.pretty 0

/-- The fields that have been read. -/
structure Draft where
  blocks : Option (List Block) := none
  connections : Option (List Connection) := none

/-- Takes in one field. -/
def Draft.read (room : Nat) (d : Draft) (key : String) (value : Document) :
    Except ReadError Draft := do
  if key = "nodes" then
    let blocks ← Shape.once "nodes" d.blocks (Reader.list Block.reader room value)
    return { d with blocks }
  else if key = "edges" then
    let connections ← Shape.once "edges" d.connections
      (Reader.list Connection.reader room value)
    return { d with connections }
  else
    Reader.skip value
    return d

/-- A canvas needs its nodes; without edges it has none. -/
def shape (room : Nat) : Shape Document Draft Canvas where
  name := "struct UiGraph"
  fields := ["nodes", "edges"]
  draft := {}
  read := Draft.read room
  finish := fun absent d => do
    let blocks ← Shape.required absent 0 "nodes" d.blocks
    return ⟨blocks, d.connections.getD []⟩

def reader : Reader Canvas := Shape.reader shape

/-- A canvas in a JSON text. -/
def ofJsonText (text : String) : Except ReadError Canvas := Reader.run reader text

/-- The pipeline of an editor's export. -/
def load (text : String) : Except CanvasError Pipeline :=
  match ofJsonText text with
  | .ok canvas => canvas.toPipeline
  | .error e => .error (.unreadable e.message)

end Canvas

end PipeScript
