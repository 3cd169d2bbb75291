-- The parameters of a command count only as a map. However they were listed, with whatever values
-- overwritten, and in whatever order the tables that hold them are gone through, what is written
-- for a pipeline is the same as soon as the last values are; and where parameters are written,
-- their keys are in order.
import PipeScript.Canvas.Format
import PipeScript.Compiler
import PipeScript.Pipeline.Format
import PipeScript.Proofs.Compiler.Twins
import PipeScript.Proofs.Json.KeyOrder

namespace PipeScript

open Script (Settings)

/-! ## Orders of iteration -/

/-- How the maps of a graph are gone through: for the map at a place one of the tables that hold
it, so that one map may have other tables at other places. Nothing is known of the order in which
a table has its entries. -/
structure Iteration where
  table : Nat → Params → Params.Stored
  holds : ∀ place params, Params.ofStored (table place params) = params

namespace Iteration

theorem serializeParams_table (i : Iteration) (place : Nat) (params : Params) :
    NodeKind.serializeParams (i.table place params) = NodeKind.paramsToJson params :=
  congrArg NodeKind.paramsToJson (i.holds place params)

theorem serializeSorted_table (i : Iteration) (place : Nat) (params : Params) :
    Canvas.Data.serializeSorted (some (i.table place params)) = Canvas.Data.paramsToJson params :=
  congrArg Canvas.Data.paramsToJson (i.holds place params)

theorem get?_table (i : Iteration) (place : Nat) (params : Params) (name : String) :
    (i.table place params).get? name = params.get? name :=
  congrArg (·.get? name) (i.holds place params)

end Iteration

/-- The text of a pipeline, when its parameters are gone through in this way. -/
def Pipeline.textBy (i : Iteration) (p : Pipeline) : String :=
  (p.toJsonBy fun place params => NodeKind.serializeParams (i.table place params)).compact

/-- The text of a canvas, when its parameters are gone through in this way. -/
def Canvas.textBy (i : Iteration) (c : Canvas) : String :=
  (c.toJsonBy fun place params => Data.serializeSorted (some (i.table place params))).pretty 0

theorem Pipeline.textBy_eq (i : Iteration) (p : Pipeline) : p.textBy i = p.toJsonText := by
  unfold textBy
  simp only [i.serializeParams_table]
  rfl

theorem Canvas.textBy_eq (i : Iteration) (c : Canvas) : c.textBy i = c.toJsonText := by
  unfold textBy
  simp only [i.serializeSorted_table]
  rfl

/-! ## Nodes with other lists -/

namespace Node

/-- The node of a command with a list of parameters. -/
def command (id commandId : String) (pairs : List (String × Json)) : Node :=
  ⟨id, .command commandId (.ofList pairs)⟩

def params? (node : Node) : Option Params :=
  match node.kind with
  | .command _ params => some params
  | _ => none

/-- Two nodes that are the same, but for lists of parameters that end with the same values. -/
inductive Alike : Node → Node → Prop where
  | refl (node : Node) : Alike node node
  | command (id commandId : String) {pairs pairs' : List (String × Json)} :
    (∀ name, Params.last pairs name = Params.last pairs' name) →
    Alike (.command id commandId pairs) (.command id commandId pairs')

theorem Alike.eq {node node' : Node} (h : node.Alike node') : node = node' := by
  cases h with
  | refl => rfl
  | command id commandId hlast =>
    have hparams : Params.ofList _ = Params.ofList _ := Params.ofList_eq_ofList.mpr hlast
    rw [Node.command, Node.command, hparams]

end Node

/-! ## Parameters in a text -/

namespace Params

/-- The document that parameters are written as. -/
def document (params : Params) : Document := .ofJson (.object params.sorted)

theorem keysIncrease_document (params : Params) : params.document.KeysIncrease :=
  Document.keysIncrease_ofJson _ ((Json.canonical_object _).mpr params.canonical_sorted)

end Params

/-- A JSON text in which these parameters stand under the key `params`, in this order, each with
increasing keys, and nothing else does. -/
def ShowsParams (text : String) (shown : List Params) : Prop :=
  ∃ d : Document, d.WholeText text.toList ∧ d.under "params" = shown.map Params.document ∧
    ∀ value ∈ d.under "params", value.KeysIncrease

theorem showsParams_of_under {d : Document} {text : String} {shown : List Params}
    (htext : d.WholeText text.toList) (h : d.under "params" = shown.map Params.document) :
    ShowsParams text shown := by
  refine ⟨d, htext, h, fun value hvalue => ?_⟩
  rw [h] at hvalue
  obtain ⟨params, -, rfl⟩ := List.mem_map.mp hvalue
  exact params.keysIncrease_document

section Under

open Document (ofJson ofItems ofMembers under underItems underMembers)

theorem under_node (node : Node) :
    under "params" (ofJson (node.toJson NodeKind.paramsToJson)) =
      node.params?.toList.map Params.document := by
  obtain ⟨id, kind⟩ := node
  cases kind <;> simp [Node.toJson, NodeKind.toJson, NodeKind.paramsToJson_eq, ofJson, ofMembers,
    under, underMembers, Node.params?, Params.document]

theorem under_edge (edge : Edge) : under "params" (ofJson edge.toJson) = [] := by
  obtain ⟨source, target, handle⟩ := edge
  cases handle <;> simp [Edge.toJson, ofJson, ofMembers, under, underMembers]

/-- A member that is none of the parameters. -/
theorem under_member {α : Type} {name : String} (hname : name ≠ "params") {toJson : α → Json}
    (htoJson : ∀ a, under "params" (ofJson (toJson a)) = []) (value : Option α) :
    underMembers "params" (ofMembers (Canvas.member name toJson value)) = [] := by
  cases value <;> simp [Canvas.member, ofMembers, underMembers, hname, htoJson]

theorem under_data (d : Canvas.Data) :
    under "params" (ofJson (d.toJson Canvas.Data.paramsToJson)) =
      d.params.toList.map Params.document := by
  have hstring : ∀ value, under "params" (ofJson (.string value)) = [] := fun _ => rfl
  have hbool : ∀ value, under "params" (ofJson (.bool value)) = [] := fun _ => rfl
  have hparams : underMembers "params"
      (ofMembers (Canvas.member "params" Canvas.Data.paramsToJson d.params)) =
      d.params.toList.map Params.document := by
    cases d.params <;> simp [Canvas.member, Canvas.Data.paramsToJson_eq, ofMembers, underMembers,
      Params.document]
  simp only [Canvas.Data.toJson, ofJson, under, Document.ofMembers_append,
    Document.underMembers_append, hparams]
  simp only [under_member (show "path" ≠ "params" by decide) hstring,
    under_member (show "append" ≠ "params" by decide) hbool,
    under_member (show "commandId" ≠ "params" by decide) hstring,
    under_member (show "label" ≠ "params" by decide) hstring,
    under_member (show "loopType" ≠ "params" by decide) hstring, List.nil_append]

theorem under_block (b : Canvas.Block) :
    under "params" (ofJson (b.toJson Canvas.Data.paramsToJson)) =
      b.data.params.toList.map Params.document := by
  have hposition : ∀ p : Canvas.Position, under "params" (ofJson p.toJson) = [] := by
    intro p
    simp [Canvas.Position.toJson, ofJson, ofMembers, under, underMembers]
  simp only [Canvas.Block.toJson, ofJson, under, Document.ofMembers_append,
    Document.underMembers_append,
    under_member (show "position" ≠ "params" by decide) hposition]
  simp [ofMembers, ofJson, under, underMembers, under_data]

theorem under_connection (c : Canvas.Connection) : under "params" (ofJson c.toJson) = [] := by
  obtain ⟨id, source, target, handle⟩ := c
  cases id <;> cases handle <;> simp [Canvas.Connection.toJson, Canvas.member, ofJson, ofMembers,
    under, underMembers]

/-- Nodes and edges, of which only the nodes have parameters. -/
theorem under_graph {α β : Type} {node : α → Json} {params? : α → Option Params}
    (hnode : ∀ a, under "params" (ofJson (node a)) = (params? a).toList.map Params.document)
    {edge : β → Json} (hedge : ∀ b, under "params" (ofJson (edge b)) = []) (nodes : List α)
    (edges : List β) :
    under "params" (ofJson (.object [("nodes", .array (nodes.map node)),
      ("edges", .array (edges.map edge))])) = (nodes.filterMap params?).map Params.document := by
  have hnodes : underItems "params" (ofItems (nodes.map node)) =
      (nodes.filterMap params?).map Params.document := by
    rw [Document.underItems_map, List.filterMap_eq_flatMap_toList, List.map_flatMap]
    simp only [hnode]
  have hedges : underItems "params" (ofItems (edges.map edge)) = [] := by
    rw [Document.underItems_map]
    simp [hedge]
  simp [ofJson, ofMembers, under, underMembers, hnodes, hedges]

end Under

theorem showsParams_pipeline (p : Pipeline) :
    ShowsParams p.toJsonText (p.nodes.filterMap Node.params?) :=
  showsParams_of_under (Document.text_compact p.toJson).wholeText
    (p.toJson_eq ▸ under_graph under_node under_edge p.nodes p.edges)

theorem showsParams_canvas (c : Canvas) :
    ShowsParams c.toJsonText (c.blocks.filterMap (·.data.params)) :=
  showsParams_of_under (Document.text_pretty c.toJson 0).wholeText
    (c.toJson_eq ▸ under_graph under_block under_connection c.blocks c.connections)

/-! ## The law -/

namespace Pipeline

/-- Two pipelines with the same edges, whose nodes differ in their lists of parameters at most. -/
structure Alike (p p' : Pipeline) : Prop where
  nodes : List.Forall₂ Node.Alike p.nodes p'.nodes
  edges : p.edges = p'.edges

theorem Alike.eq {p p' : Pipeline} (h : p.Alike p') : p = p' := by
  obtain ⟨nodes, edges⟩ := p
  obtain ⟨nodes', edges'⟩ := p'
  obtain ⟨hnodes, rfl⟩ := h
  have hsame : List.Forall₂ Eq nodes nodes' := hnodes.imp fun _ _ => Node.Alike.eq
  rw [List.forall₂_eq_eq_eq] at hsame
  rw [hsame]

end Pipeline

namespace Compiler

/-- A list of parameters counts by the last value of each name, so its order does not matter where
the names are distinct. Tables with the same values, and no others, hold one map and are written
alike, whatever the order of their entries. Pipelines with lists that count the same have the same JSON text and the same canvas,
whichever way the tables of the one and of the other are gone through, and the same script. A name
leads to the same value in every table, and in both texts the keys of all parameters increase by
their bytes. -/
theorem parameters_count_only_as_a_map :
    (∀ (pairs : List (String × Json)) (name : String),
      (Params.Stored.ofList pairs).get? name = Params.last pairs name ∧
      (Params.ofList pairs).get? name = Params.last pairs name) ∧
    (∀ pairs pairs' : List (String × Json), pairs.Perm pairs' → (Json.keys pairs).Nodup →
      ∀ name, Params.last pairs name = Params.last pairs' name) ∧
    (∀ s s' : Params.Stored,
      (Params.ofStored s = Params.ofStored s' ↔ ∀ name, s.get? name = s'.get? name) ∧
      ((∀ name, s.get? name = s'.get? name) →
        NodeKind.serializeParams s = NodeKind.serializeParams s' ∧
        Canvas.Data.serializeSorted (some s) = Canvas.Data.serializeSorted (some s'))) ∧
    (∀ p p' : Pipeline, p.Alike p' →
      (∀ i i' : Iteration, p.textBy i = p'.textBy i' ∧
        (Canvas.ofPipeline p).textBy i = (Canvas.ofPipeline p').textBy i') ∧
      p.toJsonText = p'.toJsonText ∧
      (Canvas.ofPipeline p).toJsonText = (Canvas.ofPipeline p').toJsonText ∧
      ∀ (c : Compiler) (settings : Settings),
        c.tryCompile p settings = c.tryCompile p' settings ∧
        c.compile p settings = c.compile p' settings) ∧
    ∀ i : Iteration,
      (∀ (place : Nat) (params : Params) (name : String),
        (i.table place params).get? name = params.get? name) ∧
      (∀ p : Pipeline, p.textBy i = p.toJsonText ∧
        ShowsParams (p.textBy i) (p.nodes.filterMap Node.params?)) ∧
      ∀ c : Canvas, c.textBy i = c.toJsonText ∧
        ShowsParams (c.textBy i) (c.blocks.filterMap (·.data.params)) := by
  refine ⟨fun pairs name => ⟨Params.Stored.get?_ofList pairs name, Params.get?_ofList pairs name⟩,
    fun _ _ => Params.last_of_perm, fun s s' => ⟨Params.ofStored_eq_ofStored, fun h => ?_⟩,
    fun p p' h => ?_, fun i => ?_⟩
  · have hsame : s ≈ s' := Params.Stored.equiv_iff.mpr h
    exact ⟨NodeKind.serializeParams_congr hsame, Canvas.Data.serializeSorted_congr hsame⟩
  · obtain rfl := h.eq
    refine ⟨fun i i' => ?_, rfl, rfl, fun _ _ => ⟨rfl, rfl⟩⟩
    rw [p.textBy_eq, p.textBy_eq, Canvas.textBy_eq, Canvas.textBy_eq]
    exact ⟨rfl, rfl⟩
  · refine ⟨i.get?_table, fun p => ⟨p.textBy_eq i, ?_⟩, fun c => ⟨c.textBy_eq i, ?_⟩⟩
    · rw [p.textBy_eq]
      exact showsParams_pipeline p
    · rw [c.textBy_eq]
      exact showsParams_canvas c

/-- A value that is overwritten, and an object with its keys in the wrong order. -/
def listed : List (String × Json) :=
  [("é", .object [("b", .null), ("a", .bool true)]), ("pattern", .string "x"), ("~", .null),
    ("pattern", .string "y")]

def relisted : List (String × Json) :=
  [("pattern", .string "y"), ("~", .null), ("é", .object [("a", .bool true), ("b", .null)])]

/-- Goes through every map in the order of its names. -/
def forwards : Iteration where
  table _ params := .ofList params.sorted
  holds _ := Params.ofList_sorted

theorem ofList_reverse_sorted (params : Params) : Params.ofList params.sorted.reverse = params := by
  have hlast := Params.last_of_perm (List.reverse_perm params.sorted).symm
    (Json.nodup_keys params.canonical_sorted.1)
  exact (Params.ofList_eq_ofList.mpr hlast).symm.trans params.ofList_sorted

/-- Goes through the map of the first node in the order of its names, and against it behind that
node. -/
def turning : Iteration where
  table
    | 0, params => .ofList params.sorted
    | _ + 1, params => .ofList params.sorted.reverse
  holds
    | 0, params => params.ofList_sorted
    | _ + 1, params => ofList_reverse_sorted params

theorem lists_that_end_alike_are_written_alike :
    ((turning.table 0 (.ofList listed)).entries.map (·.1) = ["pattern", "~", "é"] ∧
      (turning.table 1 (.ofList listed)).entries.map (·.1) = ["é", "~", "pattern"]) ∧
    Pipeline.textBy forwards ⟨[.command "n" "grep" listed, .command "m" "sed" listed], []⟩ =
      Pipeline.textBy turning ⟨[.command "n" "grep" relisted, .command "m" "sed" relisted], []⟩ ∧
    (∀ name, Params.last relisted name = Params.last relisted.reverse name) ∧
    NodeKind.serializeParams (.ofList listed) = NodeKind.serializeParams (.ofList relisted) ∧
    compile default ⟨[.command "n" "grep" listed], []⟩ .default =
      compile default ⟨[.command "n" "grep" relisted], []⟩ .default := by
  obtain ⟨hvalues, hperm, htables, hsame, -⟩ := parameters_count_only_as_a_map
  have hlast := Params.ofList_eq_ofList.mp
    (show Params.ofList listed = Params.ofList relisted by decide +kernel)
  have hstored : ∀ name, (Params.Stored.ofList listed).get? name =
      (Params.Stored.ofList relisted).get? name := by
    intro name
    rw [(hvalues listed name).1, (hvalues relisted name).1, hlast]
  have htwo := hsame ⟨[.command "n" "grep" listed, .command "m" "sed" listed], []⟩
    ⟨[.command "n" "grep" relisted, .command "m" "sed" relisted], []⟩
    ⟨.cons (.command "n" "grep" hlast) (.cons (.command "m" "sed" hlast) .nil), rfl⟩
  obtain ⟨-, -, -, hcompile⟩ := hsame ⟨[.command "n" "grep" listed], []⟩
    ⟨[.command "n" "grep" relisted], []⟩ ⟨.cons (.command "n" "grep" hlast) .nil, rfl⟩
  exact ⟨⟨by decide +kernel, by decide +kernel⟩, (htwo.1 forwards turning).1,
    hperm _ _ (List.reverse_perm _).symm (by decide), ((htables _ _).2 hstored).1,
    (hcompile default .default).2⟩

end Compiler

end PipeScript
