-- What an editor exports can be loaded again without loss: a canvas from its text, and a
-- pipeline from the text of its canvas. Blocks have no positions, the numbers in parameters are
-- whole, and the text nests no more deeply than can be read.
import PipeScript.Canvas.Format
import PipeScript.Proofs.Json.Readers

namespace PipeScript

namespace Canvas

variable {α β σ : Type}

/-! ## Fields that may be missing -/

theorem getD_map_some (value : Option β) : (value.map some).getD none = value := by
  cases value <;> rfl

/-- A member that is written only if there is a value fills a field, or leaves it as it is. -/
theorem takes_member (shape : Shape Document σ α) (key : String) (toJson : β → Json)
    (value : Option β) (fill : Option (Option β) → σ)
    (h : ∀ b, value = some b →
      shape.read (fill none) key (.ofJson (toJson b)) = .ok (fill (some (some b)))) :
    shape.Takes (fill none) (member key toJson value) (fill (value.map some)) := by
  cases value with
  | none => exact Shape.takes_nil _
  | some b => exact Shape.takes_single (h b rfl)

theorem text_string (room : Nat) (s : String) :
    Reader.text room (.ofJson (.string s)) = .ok s :=
  Reader.finds_text s room (Nat.zero_le _)

theorem optional_text (room : Nat) (s : String) :
    Reader.optional Reader.text room (.ofJson (.string s)) = .ok (some s) :=
  (Reader.finds_text s).optional (by simp) room (Nat.zero_le _)

theorem optional_bool (room : Nat) (b : Bool) :
    Reader.optional Reader.bool room (.ofJson (.bool b)) = .ok (some b) :=
  (Reader.finds_bool b).optional (by simp) room (Nat.zero_le _)

/-! ## Fields of a block -/

namespace Data

/-- Parameters, if there are any, hold whole numbers only. -/
def Whole (d : Data) : Prop := ∀ params ∈ d.params, params.Whole

/-- The draft with all the fields. -/
def drafted (d : Data) : Draft where
  path := d.path.map some
  append := d.append.map some
  commandId := d.commandId.map some
  label := d.label.map some
  loopType := d.loopType.map some
  params := d.params.map some

theorem data_drafted (d : Data) : d.drafted.data = d := by
  simp only [drafted, Draft.data, getD_map_some]

theorem finds_data {d : Data} (h : d.Whole) :
    Reader.Finds reader (d.toJson paramsToJson) d := by
  apply Shape.finds_record
  intro room hroom
  refine ⟨d.drafted, ?_, congrArg Except.ok d.data_drafted⟩
  have hread : ∀ params ∈ d.params,
      Reader.optional Params.reader room (.ofJson (paramsToJson params)) = .ok (some params) := by
    intro params hparams
    have hmem : ("params", paramsToJson params) ∈ member "params" paramsToJson d.params := by
      rw [hparams]
      exact List.mem_singleton_self _
    have hdepth : (paramsToJson params).depth ≤ room :=
      (Json.depth_le_of_mem_members (List.mem_append_right _ hmem)).trans hroom
    rw [paramsToJson_eq] at hdepth ⊢
    exact (Params.finds_params (h params hparams)).optional (by simp) room hdepth
  -- every field is filled in turn, while those behind it are still missing
  have hpath := takes_member (shape room) "path" .string d.path (fun path => { path })
    (by simp [shape, Draft.read, Shape.once, optional_text])
  have happend := takes_member (shape room) "append" .bool d.append
    (fun append => { path := d.path.map some, append })
    (by simp [shape, Draft.read, Shape.once, optional_bool])
  have hcommand := takes_member (shape room) "commandId" .string d.commandId
    (fun commandId => { path := d.path.map some, append := d.append.map some, commandId })
    (by simp [shape, Draft.read, Shape.once, optional_text])
  have hlabel := takes_member (shape room) "label" .string d.label
    (fun label => { d.drafted with label, loopType := none, params := none })
    (by simp [shape, Draft.read, Shape.once, optional_text])
  have hloop := takes_member (shape room) "loopType" .string d.loopType
    (fun loopType => { d.drafted with loopType, params := none })
    (by simp [shape, Draft.read, Shape.once, optional_text])
  have hparams := takes_member (shape room) "params" paramsToJson d.params
    (fun params => { d.drafted with params })
    (fun params hp => by simp [shape, Draft.read, Shape.once, hread params hp])
  exact ((((hpath.append happend).append hcommand).append hlabel).append hloop).append hparams

end Data

/-! ## Blocks and connections -/

namespace Block

theorem finds_block {b : Block} (hposition : b.position = none) (h : b.data.Whole) :
    Reader.Finds reader (b.toJson Data.paramsToJson) b := by
  obtain ⟨id, blockType, position, data⟩ := b
  cases hposition
  apply Shape.finds_record
  intro room hroom
  refine ⟨⟨some id, some blockType, none, some data⟩, ?_, rfl⟩
  have hid : (shape room).Takes {} [("id", .string id)] { id := some id } :=
    Shape.takes_single (by simp [shape, Draft.read, Shape.once, text_string])
  have htype : (shape room).Takes { id := some id } [("type", .string blockType)]
      { id := some id, blockType := some blockType } :=
    Shape.takes_single (by simp [shape, Draft.read, Shape.once, text_string])
  have hread : Data.reader room (.ofJson (data.toJson Data.paramsToJson)) = .ok data := by
    apply Data.finds_data h room
    exact (Json.depth_le_of_mem_members (List.mem_append_right _ (List.mem_singleton_self _))).trans
      hroom
  have hdata : (shape room).Takes { id := some id, blockType := some blockType }
      [("data", data.toJson Data.paramsToJson)] ⟨some id, some blockType, none, some data⟩ :=
    Shape.takes_single (by simp [shape, Draft.read, Shape.once, hread])
  exact (hid.append htype).append hdata

/-- A node is the node of its block. -/
theorem toNode_ofNode (node : Node) : (ofNode node).toNode = .ok node := by
  obtain ⟨id, kind⟩ := node
  cases kind with
  | input path => rfl
  | output path append => rfl
  | command commandId params =>
    -- The label has the id as well, and stands in when the id is empty.
    have hcommand : (Data.ofKind (.command commandId params)).command? = some commandId := by
      cases hempty : commandId.isEmpty <;>
        simp [Data.ofKind, Data.command?, Option.filter, hempty]
    simp only [toNode, kind, ofNode, NodeKind.typeName, hcommand]
    rfl
  | conditional condition => rfl
  | forLoop variableName values =>
    have hget : ∀ name, (textParams [("variable", variableName), ("values", values)]).get? name
        = Params.last [("variable", .string variableName), ("values", .string values)] name :=
      Params.get?_ofList _
    simp only [toNode, kind, ofNode, NodeKind.typeName, Data.ofKind, textParam, Option.bind_some,
      hget]
    rfl
  | whileLoop condition => rfl

end Block

namespace Connection

theorem finds_connection (c : Connection) : Reader.Finds reader c.toJson c := by
  obtain ⟨id, source, target, sourceHandle⟩ := c
  apply Shape.finds_record
  intro room hroom
  refine ⟨⟨id.map some, some source, some target, sourceHandle.map some⟩, ?_, ?_⟩
  · have hid := takes_member (shape room) "id" .string id (fun id => { id })
      (by simp [shape, Draft.read, Shape.once, optional_text])
    have hsource : (shape room).Takes { id := id.map some } [("source", .string source)]
        { id := id.map some, source := some source } :=
      Shape.takes_single (by simp [shape, Draft.read, Shape.once, text_string])
    have htarget : (shape room).Takes { id := id.map some, source := some source }
        [("target", .string target)] ⟨id.map some, some source, some target, none⟩ :=
      Shape.takes_single (by simp [shape, Draft.read, Shape.once, text_string])
    have hhandle := takes_member (shape room) "sourceHandle" .string sourceHandle
      (fun handle => ⟨id.map some, some source, some target, handle⟩)
      (by simp [shape, Draft.read, Shape.once, optional_text])
    exact (hid.append (hsource.append htarget)).append hhandle
  · simp only [shape, Shape.required, getD_map_some]
    rfl

end Connection

/-! ## The whole canvas -/

/-- A canvas without positions, and with whole numbers only. -/
def Whole (c : Canvas) : Prop := ∀ b ∈ c.blocks, b.position = none ∧ b.data.Whole

theorem finds_canvas {c : Canvas} (h : c.Whole) : Reader.Finds reader c.toJson c := by
  rw [toJson_eq]
  obtain ⟨blocks, connections⟩ := c
  apply Shape.finds_record
  intro room hroom
  refine ⟨⟨some blocks, some connections⟩, ?_, rfl⟩
  have hblocks : Reader.list Block.reader room
      (.ofJson (.array (blocks.map (Block.toJson Data.paramsToJson)))) = .ok blocks := by
    refine Reader.finds_list (fun b hb => ?_) room
      ((Json.depth_le_of_mem_members List.mem_cons_self).trans hroom)
    exact Block.finds_block (h b hb).1 (h b hb).2
  have hconnections : Reader.list Connection.reader room
      (.ofJson (.array (connections.map Connection.toJson))) = .ok connections :=
    Reader.finds_list (fun c _ => c.finds_connection) room
      ((Json.depth_le_of_mem_members (List.mem_cons_of_mem _ List.mem_cons_self)).trans hroom)
  have hnodes : (shape room).Takes {}
      [("nodes", .array (blocks.map (Block.toJson Data.paramsToJson)))]
      { blocks := some blocks } :=
    Shape.takes_single (by simp [shape, Draft.read, Shape.once, hblocks])
  have hedges : (shape room).Takes { blocks := some blocks }
      [("edges", .array (connections.map Connection.toJson))] ⟨some blocks, some connections⟩ :=
    Shape.takes_single (by simp [shape, Draft.read, Shape.once, hconnections])
  exact hnodes.append hedges

/-! ## Pipelines -/

theorem whole_textParams (pairs : List (String × String)) : (textParams pairs).Whole := by
  rw [Params.Whole, Json.wholeMembers_iff]
  rintro ⟨name, value⟩ hvalue
  rw [Params.mem_sorted, textParams, Params.get?_ofList, Params.last, Option.map_eq_some_iff] at hvalue
  obtain ⟨entry, hfound, rfl⟩ := hvalue
  have hentry := List.mem_of_find?_eq_some hfound
  rw [List.mem_reverse, List.mem_map] at hentry
  obtain ⟨pair, -, rfl⟩ := hentry
  rfl

theorem Data.whole_ofKind {kind : NodeKind}
    (h : ∀ commandId params, kind = .command commandId params → params.Whole) :
    (Data.ofKind kind).Whole := by
  intro params hparams
  cases kind with
  | input | output => cases hparams
  | command commandId params' =>
    cases hparams
    exact h commandId params rfl
  | conditional | whileLoop | forLoop =>
    cases hparams
    exact whole_textParams _

theorem whole_ofPipeline {p : Pipeline} (h : p.Whole) : (ofPipeline p).Whole := by
  intro b hb
  obtain ⟨node, hnode, rfl⟩ := List.mem_map.mp hb
  exact ⟨rfl, Data.whole_ofKind (h node hnode)⟩

theorem toPipeline_ofPipeline (p : Pipeline) : (ofPipeline p).toPipeline = .ok p := by
  have hnodes : (p.nodes.map Block.ofNode).mapM Block.toNode = .ok p.nodes := by
    induction p.nodes with
    | nil => rfl
    | cons node rest ih =>
      rw [List.map_cons, List.mapM_cons, Block.toNode_ofNode, ih]
      rfl
  have hedges : (p.edges.mapIdx Connection.ofEdge).map Connection.toEdge = p.edges := by
    apply List.ext_getElem
    · simp
    · simp [Connection.toEdge, Connection.ofEdge]
  simp only [toPipeline, ofPipeline, hnodes, hedges]
  rfl

/-! ## The law -/

/-- A canvas is read back from its text as it was. A pipeline is loaded back, each node and each
edge, from the text of its canvas. -/
theorem what_is_exported_can_be_loaded_again :
    (∀ c : Canvas, c.Whole → c.toJson.depth ≤ 127 → ofJsonText c.toJsonText = .ok c) ∧
    ∀ p : Pipeline, p.Whole → (ofPipeline p).toJson.depth ≤ 127 →
      load (ofPipeline p).toJsonText = .ok p := by
  have hcanvas : ∀ c : Canvas, c.Whole → c.toJson.depth ≤ 127 →
      ofJsonText c.toJsonText = .ok c := by
    intro c hwhole hdepth
    exact (finds_canvas hwhole).run_pretty hdepth
  refine ⟨hcanvas, fun p hwhole hdepth => ?_⟩
  unfold load
  rw [hcanvas _ (whole_ofPipeline hwhole) hdepth]
  exact toPipeline_ofPipeline p

/-- A block of no known type and a connection to nowhere. -/
def note : Canvas where
  blocks := [⟨"n\"1\"", "note", none,
    { label := some "", append := some false
      params := some (.ofList [("é\n", .array [.null])]) }⟩]
  connections := [⟨none, "n\"1\"", "nowhere", some "\x00"⟩]

/-- A loop into a command without an id, which has the least and the greatest whole number. -/
def unnamed : Pipeline where
  nodes := [⟨"α", .forLoop "x" "\"a\\\n"⟩,
    ⟨"", .command "" (.ofList
      [("deep", .object [("least", .number (.int (-9223372036854775808)))]),
        ("ceiling", .number (.int 18446744073709551615))])⟩,
    ⟨"end", .output "out put" true⟩]
  edges := [⟨"α", "", none⟩, ⟨"", "end", some "true"⟩]

theorem a_note_and_an_unnamed_command_are_loaded_again :
    (note.Whole ∧ note.toJson.depth ≤ 127 ∧ ofJsonText note.toJsonText = .ok note) ∧
    unnamed.Whole ∧ (ofPipeline unnamed).toJson.depth ≤ 127 ∧
      load (ofPipeline unnamed).toJsonText = .ok unnamed := by
  have hnote : note.Whole := by
    intro b hb
    cases List.mem_singleton.mp hb
    refine ⟨rfl, fun params hparams => ?_⟩
    cases hparams
    decide +kernel
  have hunnamed : unnamed.Whole := by
    intro node hnode commandId params hkind
    simp only [unnamed, List.mem_cons, List.not_mem_nil, or_false] at hnode
    rcases hnode with rfl | rfl | rfl <;> cases hkind
    decide +kernel
  have hnoteDepth : note.toJson.depth ≤ 127 := by decide +kernel
  have hunnamedDepth : (ofPipeline unnamed).toJson.depth ≤ 127 := by decide +kernel
  exact ⟨⟨hnote, hnoteDepth, what_is_exported_can_be_loaded_again.1 note hnote hnoteDepth⟩,
    hunnamed, hunnamedDepth,
    what_is_exported_can_be_loaded_again.2 unnamed hunnamed hunnamedDepth⟩

end Canvas

end PipeScript
