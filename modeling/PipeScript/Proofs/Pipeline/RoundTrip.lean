-- A pipeline is read back from its text as it was. Kinds of nodes are told apart by a tag in
-- their object, loops by a second one in the same object, and parameters may have any names,
-- those of the tags included. The numbers in parameters are whole, and the text nests no more
-- deeply than can be read.
import PipeScript.Pipeline.Format
import PipeScript.Proofs.Json.TaggedRecords

namespace PipeScript

/-! ## Kinds -/

namespace NodeKind

/-- The tag that a kind is written with. -/
def tag : NodeKind → Tag
  | .input _ => .input
  | .output _ _ => .output
  | .command _ _ => .command
  | .conditional _ => .conditional
  | .forLoop _ _ | .whileLoop _ => .loop

/-- The fields that a kind is written with, behind the tag. A loop has a tag of its own among
them. -/
def fields : NodeKind → List (String × Json)
  | .input path => [("path", .string path)]
  | .output path append => [("path", .string path), ("append", .bool append)]
  | .command commandId params =>
    [("command_id", .string commandId), ("params", paramsToJson params)]
  | .conditional condition => [("condition", .string condition)]
  | .forLoop variableName values =>
    [("loop_type", .string LoopTag.forLoop.name), ("variable", .string variableName),
      ("values", .string values)]
  | .whileLoop condition =>
    [("loop_type", .string LoopTag.whileLoop.name), ("condition", .string condition)]

/-- The parameters of a command, if it is one, hold whole numbers only. -/
def Whole (kind : NodeKind) : Prop :=
  ∀ commandId params, kind = .command commandId params → params.Whole

theorem toJson_eq (kind : NodeKind) :
    kind.toJson paramsToJson = .object (("type", .string kind.tag.name) :: kind.fields) := by
  cases kind <;> rfl

theorem type_not_mem_fields (kind : NodeKind) : "type" ∉ Json.keys kind.fields := by
  cases kind <;> simp [fields]

theorem whole_fields {kind : NodeKind} (h : kind.Whole) :
    Json.wholeMembers kind.fields = true := by
  cases kind with
  | command commandId params =>
    have hparams : (paramsToJson params).whole = true := by
      rw [paramsToJson_eq]
      exact h commandId params rfl
    simp [fields, Json.wholeMembers, Json.whole, hparams]
  | input _ | output _ _ | conditional _ | forLoop _ _ | whileLoop _ => rfl

theorem documentTag_name (tag : Tag) :
    Kept.documentTag Tag.all Tag.name (.ofJson (.string tag.name)) = .ok tag := by
  rw [Document.ofJson, Kept.documentTag, Reader.spell_ofText]
  exact Kept.variant_name (by decide) (by cases tag <;> decide)

theorem keptTag_name (tag : LoopTag) :
    Kept.keptTag LoopTag.all LoopTag.name (.string tag.name) = .ok tag :=
  Kept.variant_name (by decide) (by cases tag <;> decide)

theorem keptParams_toJson (params : Params) : keptParams (paramsToJson params) = .ok params := by
  rw [paramsToJson_eq]
  exact congrArg Except.ok params.ofList_sorted

/-- A kind is told from its tag and its fields. -/
theorem ofKept_fields (kind : NodeKind) : ofKept kind.tag (.byName kind.fields) = .ok kind := by
  cases kind with
  | input path =>
    simp only [ofKept, tag, fields, Shape.ofKept_one _ "path" (Kept.text_string path)]
    rfl
  | output path append =>
    simp only [ofKept, tag, fields, Shape.ofKept_two _ (show "append" ≠ "path" by decide)
      (Kept.text_string path) (Kept.bool_bool append)]
    rfl
  | command commandId params =>
    simp only [ofKept, tag, fields, Shape.ofKept_two _ (show "params" ≠ "command_id" by decide)
      (Kept.text_string commandId) (keptParams_toJson params)]
    rfl
  | conditional condition =>
    simp only [ofKept, tag, fields,
      Shape.ofKept_one _ "condition" (Kept.text_string condition)]
    rfl
  | forLoop variableName values =>
    -- the tag of the loop is told first, from the fields that were kept
    have hsplit := Kept.split_tagged "loop_type"
      [("variable", .string variableName), ("values", .string values)] (keptTag_name .forLoop)
      (by simp)
    simp only [ofKept, tag, fields, loopOfKept, hsplit, bind, Except.bind,
      Shape.ofKept_two _ (show "values" ≠ "variable" by decide)
        (Kept.text_string variableName) (Kept.text_string values)]
    rfl
  | whileLoop condition =>
    have hsplit := Kept.split_tagged "loop_type" [("condition", .string condition)]
      (keptTag_name .whileLoop) (by simp)
    simp only [ofKept, tag, fields, loopOfKept, hsplit, bind, Except.bind,
      Shape.ofKept_one _ "condition" (Kept.text_string condition)]
    rfl

theorem finds_kind {kind : NodeKind} (h : kind.Whole) :
    Reader.Finds reader (kind.toJson paramsToJson) kind := by
  intro room hroom
  rw [toJson_eq] at hroom ⊢
  have htagged := Kept.finds_tagged "internally tagged enum NodeKind" (documentTag_name kind.tag)
    kind.type_not_mem_fields (whole_fields h) room hroom
  unfold reader
  simp only [htagged, bind, Except.bind]
  exact ofKept_fields kind

end NodeKind

/-! ## Nodes and edges -/

namespace Node

theorem finds_node {node : Node} (h : node.kind.Whole) :
    Reader.Finds reader (node.toJson NodeKind.paramsToJson) node := by
  intro room hroom
  have hfields := Shape.finds_two "struct Node" (show "kind" ≠ "id" by decide)
    (Reader.finds_text node.id) (NodeKind.finds_kind h) room hroom
  unfold reader toJson
  simp only [hfields, bind, Except.bind]
  rfl

end Node

namespace Edge

theorem finds_edge (edge : Edge) : Reader.Finds reader edge.toJson edge := by
  obtain ⟨source, target, handle⟩ := edge
  apply Shape.finds_record
  intro room hroom
  refine ⟨⟨some source, some target, some handle⟩, ?_, rfl⟩
  have htext : ∀ s : String, Reader.text room (.ofJson (.string s)) = .ok s :=
    fun s => Reader.finds_text s room (Nat.zero_le _)
  have hsource : (shape room).Takes {} [("source", .string source)] { source := some source } :=
    Shape.takes_single (by simp [shape, Draft.read, Shape.once, htext])
  have htarget : (shape room).Takes { source := some source } [("target", .string target)]
      ⟨some source, some target, none⟩ :=
    Shape.takes_single (by simp [shape, Draft.read, Shape.once, htext])
  refine (hsource.append htarget).append (Shape.takes_single ?_)
  cases handle with
  | none => rfl
  | some handle =>
    have hhandle := (Reader.finds_text handle).optional (by simp) room (Nat.zero_le _)
    simp [shape, Draft.read, Shape.once, hhandle]

end Edge

/-! ## The law -/

namespace Pipeline

theorem finds_pipeline {p : Pipeline} (h : p.Whole) : Reader.Finds reader p.toJson p := by
  rw [toJson_eq]
  intro room hroom
  have hnodes : Reader.Finds (Reader.list Node.reader)
      (.array (p.nodes.map (Node.toJson NodeKind.paramsToJson))) p.nodes :=
    Reader.finds_list fun node hnode => Node.finds_node (h node hnode)
  have hedges : Reader.Finds (Reader.list Edge.reader) (.array (p.edges.map Edge.toJson)) p.edges :=
    Reader.finds_list fun edge _ => edge.finds_edge
  have hfields := Shape.finds_two "struct PipelineGraph" (show "edges" ≠ "nodes" by decide)
    hnodes hedges room hroom
  unfold reader
  simp only [hfields, bind, Except.bind]
  rfl

/-- A pipeline is read back from its text on one line, each node and each edge as it was. -/
theorem what_is_written_is_read_back (p : Pipeline) (h : p.Whole) (hdepth : p.toJson.depth ≤ 127) :
    ofJsonText p.toJsonText = .ok p :=
  (finds_pipeline h).run_compact hdepth

/-- Both loops, and a command whose parameters are called like tags and fields. -/
def misleading : Pipeline where
  nodes := [⟨"a\"\\", .forLoop "type" "\x00\n "⟩,
    ⟨"", .command "loop" (.ofList
      [("type", .string "while"), ("loop_type", .object [("type", .null)]),
        ("condition", .array [.number (.int (-9223372036854775808)), .bool true]),
        ("params", .number (.int 18446744073709551615)), ("", .object [])])⟩,
    ⟨"w", .whileLoop "loop_type"⟩, ⟨"if", .conditional ""⟩, ⟨"in", .input "é"⟩,
    ⟨"out", .output "out" true⟩]
  edges := [⟨"a\"\\", "", none⟩, ⟨"", "nowhere", some ""⟩, ⟨"", "w", some "\t"⟩]

theorem misleading_names_are_read_back :
    misleading.Whole ∧ misleading.toJson.depth ≤ 127 ∧
      ofJsonText misleading.toJsonText = .ok misleading := by
  have hwhole : misleading.Whole := by
    intro node hnode commandId params hkind
    simp only [misleading, List.mem_cons, List.not_mem_nil, or_false] at hnode
    rcases hnode with rfl | rfl | rfl | rfl | rfl | rfl <;> cases hkind
    decide +kernel
  have hdepth : misleading.toJson.depth ≤ 127 := by decide +kernel
  exact ⟨hwhole, hdepth, what_is_written_is_read_back misleading hwhole hdepth⟩

end Pipeline

end PipeScript
