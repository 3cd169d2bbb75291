-- Control blocks have twins among the commands: a condition or a loop can be a node of its own
-- kind, or a command with the same strings as parameters. The two ways read their strings
-- differently, but what they write is the same, and so is the script around it.
import PipeScript.Proofs.Compiler.Aliases
import PipeScript.Proofs.Params
import PipeScript.Proofs.Pipeline.Kinds
import PipeScript.Proofs.Pipeline.Lines
import PipeScript.Proofs.Script.Argv

namespace PipeScript

open Command (Catalog.conditional Catalog.forLoop Catalog.whileLoop Definition Registry)
open Script (Builder Fragment Settings Warning)

/-! ## Control commands -/

namespace Script

/-- An empty text is no value, and a field that is filled with it has none either. -/
theorem filled_text? {params : Params} {name text : String}
    (h : params.get? name = some (.string text)) :
    filled (params.text? name) = filled (some text) := by
  unfold Params.text?
  rw [h]
  dsimp only
  by_cases hempty : text.isEmpty = true
  · rw [if_pos hempty, String.isEmpty_iff.mp hempty]
    rfl
  · rw [if_neg hempty]

theorem filled_ofList_one (name text : String) :
    filled ((Params.ofList [(name, .string text)]).text? name) = filled (some text) := by
  apply filled_text?
  rw [Params.get?_ofList]
  simp [Params.last, Json.normal]

end Script

namespace Compiler

/-- A built-in command with a layout of its own whose parameters are all texts that it cannot do
without. Such are the control commands. -/
structure IsControl (d : Definition) (builder : Builder) : Prop where
  known : Registry.builtin.lookup d.id = some d
  program : d.program = d.id
  layout : Script.builtinBuilder? d.id = some builder
  texts : ∀ spec ∈ d.params, spec.required = true ∧ spec.kind ≠ .boolean

theorem conditional_isControl : IsControl Catalog.conditional Script.conditional where
  known := by decide +kernel
  program := rfl
  layout := rfl
  texts := by decide

theorem forLoop_isControl : IsControl Catalog.forLoop Script.forLoop where
  known := by decide +kernel
  program := rfl
  layout := rfl
  texts := by decide

theorem whileLoop_isControl : IsControl Catalog.whileLoop Script.whileLoop where
  known := by decide +kernel
  program := rfl
  layout := rfl
  texts := by decide

theorem IsControl.lacks {d : Definition} {builder : Builder} (h : IsControl d builder)
    (params : Params) {spec : Command.ParamSpec} (hspec : spec ∈ d.params) :
    params.lacks spec = (params.text? spec.name).isNone := by
  obtain ⟨hrequired, hkind⟩ := h.texts spec hspec
  unfold Params.lacks
  rw [hrequired, if_neg hkind, Bool.true_and]

/-- A control command is written by its layout, and every field without a text is reported. -/
theorem IsControl.write {d : Definition} {builder : Builder} (h : IsControl d builder)
    (id : String) (params : Params) :
    default.write ⟨id, .command d.id params⟩ =
      (builder d params, ((d.params.map (·.name)).filter fun name =>
        (params.text? name).isNone).map (.missingParameter id)) := by
  have hbuilder : Compiler.default.builders.builderFor d = builder := by
    rw [show Compiler.default.builders = Script.Builders.builtin from rfl,
      Script.builderFor_builtin h.program, h.layout]
    rfl
  rw [write_command h.known, hbuilder, List.filter_map, List.map_map,
    List.filter_congr fun spec hspec => h.lacks params hspec]
  rfl

end Compiler

/-! ## Twins -/

/-- A control block as a command: its strings are the parameters. Any other kind stays as it
is. -/
def NodeKind.asCommand : NodeKind → NodeKind
  | .conditional condition => .command "if" (.ofList [("condition", .string condition)])
  | .forLoop variableName values =>
    .command "for" (.ofList [("variable", .string variableName), ("values", .string values)])
  | .whileLoop condition => .command "while" (.ofList [("condition", .string condition)])
  | kind => kind

/-- The node itself, or its twin among the commands. -/
def Node.Twin (a b : Node) : Prop := b.id = a.id ∧ (b.kind = a.kind ∨ b.kind = a.kind.asCommand)

/-- The same pipeline with some control blocks given as commands. -/
structure Pipeline.Respells (p q : Pipeline) : Prop where
  nodes : List.Forall₂ Node.Twin p.nodes q.nodes
  edges : q.edges = p.edges

namespace Compiler

/-- A control block is written like the command. -/
theorem write_asCommand (id : String) (kind : NodeKind) :
    (default.write ⟨id, kind.asCommand⟩).1 = (default.write ⟨id, kind⟩).1 := by
  cases kind with
  | input _ | output _ _ | command _ _ => rfl
  | conditional condition =>
    refine (congrArg Prod.fst (conditional_isControl.write id _)).trans ?_
    show Script.ifBlock _ = Script.ifBlock _
    unfold Script.ifBlock
    rw [Script.filled_ofList_one]
  | forLoop variableName values =>
    have hvariable : Script.filled ((Params.ofList [("variable", .string variableName),
        ("values", .string values)]).text? "variable") = Script.filled (some variableName) :=
      Script.filled_text? (Params.get?_ofList _ _)
    have hvalues : Script.filled ((Params.ofList [("variable", .string variableName),
        ("values", .string values)]).text? "values") = Script.filled (some values) :=
      Script.filled_text? (Params.get?_ofList _ _)
    refine (congrArg Prod.fst (forLoop_isControl.write id _)).trans ?_
    show Script.forBlock _ _ = Script.forBlock _ _
    unfold Script.forBlock
    rw [hvariable, hvalues]
  | whileLoop condition =>
    refine (congrArg Prod.fst (whileLoop_isControl.write id _)).trans ?_
    show Script.whileBlock _ = Script.whileBlock _
    unfold Script.whileBlock
    rw [Script.filled_ofList_one]

theorem write_twin {a b : Node} (h : a.Twin b) : (default.write b).1 = (default.write a).1 := by
  obtain ⟨id, kind⟩ := a
  obtain ⟨id', kind'⟩ := b
  obtain ⟨hid, hkind⟩ := h
  dsimp only at hid hkind
  subst hid
  rcases hkind with rfl | rfl
  · rfl
  · exact write_asCommand id' kind

/-- Pipelines with the same ids and edges, whose nodes are written alike one by one, have the
same script, or are refused with the same comment. -/
theorem compile_congr (c : Compiler) {p q : Pipeline} (settings : Settings)
    (h : List.Forall₂ (fun a b => a.id = b.id ∧ (c.write a).1 = (c.write b).1) p.nodes q.nodes)
    (hedges : p.edges = q.edges) : c.compile p settings = c.compile q settings := by
  obtain ⟨hrefused, haccepted⟩ := Pipeline.check_forall₂ (fun _ _ hab => hab.1) h hedges
  unfold compile tryCompile
  rcases hp : p.check with flaw | order
  · rw [hrefused flaw hp]
  · obtain ⟨order', hq, hsame⟩ := haccepted order hp
    have hfragments : order.map (fun node => (c.write node).1) =
        order'.map fun node => (c.write node).1 := by
      rw [← List.forall₂_eq_eq_eq, List.forall₂_map_left_iff, List.forall₂_map_right_iff]
      exact hsame.imp fun _ _ hab => hab.2
    rw [hq]
    show Script.wrap (Script.body ((order.map c.write).map (·.1))) settings =
      Script.wrap (Script.body ((order'.map c.write).map (·.1))) settings
    rw [List.map_map, List.map_map]
    exact congrArg (fun fragments => Script.wrap (Script.body fragments) settings) hfragments

/-! ## The law -/

/-- Whatever strings control blocks hold, blank or empty ones included, and wherever they stand,
some or all of them can be given as commands: the text that comes out is the same. -/
theorem a_control_block_can_be_given_as_a_command (p q : Pipeline) (settings : Settings)
    (h : p.Respells q) : default.compile q settings = default.compile p settings := by
  symm
  apply compile_congr default settings _ h.edges.symm
  exact h.nodes.imp fun _ _ hab => ⟨hab.1.symm, (write_twin hab).symm⟩

/-- Control blocks in the middle of a line, with blank, empty and proper strings. -/
def controls : Pipeline := .chain
  [⟨"in", .input "in"⟩, ⟨"if", .conditional " [ -f x ]\n"⟩, ⟨"for", .forLoop "i" "\t"⟩,
    ⟨"while", .whileLoop ""⟩, ⟨"again", .whileLoop "true"⟩, ⟨"out", .output "out" false⟩]

/-- The same line with all but one of them given as commands. -/
def respelled : Pipeline where
  nodes := [⟨"in", .input "in"⟩,
    ⟨"if", .command "if" (.ofList [("condition", .string " [ -f x ]\n")])⟩,
    ⟨"for", .command "for" (.ofList [("variable", .string "i"), ("values", .string "\t")])⟩,
    ⟨"while", .command "while" (.ofList [("condition", .string "")])⟩,
    ⟨"again", .whileLoop "true"⟩, ⟨"out", .output "out" false⟩]
  edges := controls.edges

theorem controls_are_compiled_like_commands :
    controls.check = .ok controls.nodes ∧ controls.Respells respelled ∧
      default.compile respelled .default = default.compile controls .default := by
  have hline : controls.check = .ok controls.nodes :=
    Pipeline.check_of_line (by decide) (by simp [controls, Pipeline.chain]) (.refl _) (by decide)
  have hsame : controls.Respells respelled := by
    refine ⟨?_, rfl⟩
    refine .cons ⟨rfl, .inl rfl⟩ (.cons ⟨rfl, .inr rfl⟩ (.cons ⟨rfl, .inr rfl⟩
      (.cons ⟨rfl, .inr rfl⟩ (.cons ⟨rfl, .inl rfl⟩ (.cons ⟨rfl, .inl rfl⟩ .nil)))))
  exact ⟨hline, hsame, a_control_block_can_be_given_as_a_command _ _ .default hsame⟩

end Compiler

end PipeScript
