-- What a script leaves out. A node that cannot be written leaves a comment in its place, and a
-- warning tells which node it is. One thing slips through: a control command takes a text of
-- blanks for a value, and then finds nothing to write.
import PipeScript.Proofs.Compiler.Twins

namespace PipeScript

open Command (Definition Registry)
open Script (Builder Fragment Settings Warning)

/-! ## Placeholders -/

namespace Script

/-- Whether a comment stands in the place of the node. -/
def Fragment.isPlaceholder : Fragment → Bool
  | .placeholder _ => true
  | .command _ _ | .block _ | .redirect _ _ => false

theorem filled_eq_none (text : String) : filled (some text) = none ↔ Text.isBlank text = true := by
  unfold filled
  by_cases h : Text.isBlank text = true <;> simp [h]

theorem isPlaceholder_ifBlock (condition : Option String) :
    (ifBlock condition).isPlaceholder = true ↔ filled condition = none := by
  unfold ifBlock
  cases filled condition <;> simp [Fragment.isPlaceholder]

theorem isPlaceholder_forBlock (variableName values : Option String) :
    (forBlock variableName values).isPlaceholder = true ↔
      filled variableName = none ∨ filled values = none := by
  unfold forBlock
  cases filled variableName <;> cases filled values <;> simp [Fragment.isPlaceholder]

theorem isPlaceholder_whileBlock (condition : Option String) :
    (whileBlock condition).isPlaceholder = true ↔ filled condition = none := by
  unfold whileBlock
  cases filled condition <;> simp [Fragment.isPlaceholder]

/-- The fields that a control command is written with. -/
def controlFields (commandId : String) : List String :=
  if commandId = "for" then ["variable", "values"]
  else if commandId = "if" ∨ commandId = "while" then ["condition"]
  else []

end Script

/-- All the fields have a text, and one of them nothing but blanks. -/
def Params.HidesBlank (params : Params) (fields : List String) : Prop :=
  (∀ field ∈ fields, params.text? field ≠ none) ∧
    ∃ field ∈ fields, ∃ text, params.text? field = some text ∧ Text.isBlank text = true

namespace Node

/-- A control command with a blank for a value. -/
def HidesBlank (node : Node) : Prop :=
  ∃ commandId params, node.kind = .command commandId params ∧
    params.HidesBlank (Script.controlFields commandId)

theorem blankField_eq_nil (node : Node) (name value : String) :
    node.blankField name value = [] ↔ Text.isBlank value = false := by
  unfold blankField
  by_cases h : Text.isBlank value = true <;> simp [h]

end Node

/-! ## What a node leaves out -/

namespace Compiler

/-- Every warning is about the node that it comes from, whatever the compiler knows. -/
theorem node_of_mem_write {c : Compiler} {node : Node} {warning : Warning}
    (h : warning ∈ (c.write node).2) : warning.node = node.id := by
  have hblank : ∀ name value, warning ∈ node.blankField name value → warning.node = node.id := by
    intro name value hm
    unfold Node.blankField at hm
    split at hm
    · cases List.mem_singleton.mp hm
      rfl
    · cases hm
  unfold write Node.generate at h
  split at h
  · exact hblank _ _ h
  · exact hblank _ _ h
  · exact hblank _ _ h
  · rcases List.mem_append.mp h with h | h
    · exact hblank _ _ h
    · exact hblank _ _ h
  · exact hblank _ _ h
  · split at h
    · cases List.mem_singleton.mp h
      rfl
    · obtain ⟨spec, _, rfl⟩ := List.mem_map.mp h
      rfl

/-- A control command leaves a comment when a field has no text or a blank one, but warns only
when one has no text. -/
theorem IsControl.silent_iff {d : Definition} {builder : Builder} (h : IsControl d builder)
    {fields : List String} (hfields : d.params.map (·.name) = fields) {params : Params}
    (hblock : (builder d params).isPlaceholder = true ↔
      ∃ field ∈ fields, Script.filled (params.text? field) = none)
    (id : String) :
    (default.write ⟨id, .command d.id params⟩).1.isPlaceholder = true ∧
        (default.write ⟨id, .command d.id params⟩).2 = [] ↔ params.HidesBlank fields := by
  rw [h.write, hblock, hfields, List.map_eq_nil_iff, List.filter_eq_nil_iff]
  simp only [Option.isNone_iff_eq_none]
  constructor
  · rintro ⟨⟨field, hfield, hempty⟩, htexts⟩
    obtain ⟨text, htext⟩ := Option.ne_none_iff_exists'.mp (htexts field hfield)
    rw [htext, Script.filled_eq_none] at hempty
    exact ⟨htexts, field, hfield, text, htext, hempty⟩
  · rintro ⟨htexts, field, hfield, text, htext, hblank⟩
    refine ⟨⟨field, hfield, ?_⟩, htexts⟩
    rw [htext, Script.filled_eq_none]
    exact hblank

/-- A command that is no control command is written, or it is unknown and reported. -/
theorem not_silent_of_plain {commandId : String} (h : Script.isControl commandId = false)
    (id : String) (params : Params) :
    ¬ ((default.write ⟨id, .command commandId params⟩).1.isPlaceholder = true ∧
      (default.write ⟨id, .command commandId params⟩).2 = []) := by
  rintro ⟨hplaceholder, hquiet⟩
  cases hfound : Registry.builtin.lookup commandId with
  | none =>
    have hwrite : default.write ⟨id, .command commandId params⟩ =
        (.placeholder ("# Unknown command: " ++ commandId), [.unknownCommand id commandId]) := by
      unfold write Node.generate
      simp only [show Compiler.default.registry = Registry.builtin from rfl, hfound]
    rw [hwrite] at hquiet
    cases hquiet
  | some d =>
    obtain ⟨hclear, hname, hid⟩ := Script.lookup_builtin hfound
    rw [← hid] at h
    obtain ⟨text, hcommand, -⟩ := Script.builderFor_runs params hclear hname h
    have hwrite : (default.write ⟨id, .command commandId params⟩).1 =
        .command text d.producesOutput := by
      rw [write_command (show Compiler.default.registry.lookup commandId = some d from hfound)]
      exact hcommand
    rw [hwrite] at hplaceholder
    cases hplaceholder

theorem silent_command_iff (id commandId : String) (params : Params) :
    (default.write ⟨id, .command commandId params⟩).1.isPlaceholder = true ∧
        (default.write ⟨id, .command commandId params⟩).2 = [] ↔
      params.HidesBlank (Script.controlFields commandId) := by
  by_cases hif : commandId = "if"
  · subst hif
    apply conditional_isControl.silent_iff (show _ = ["condition"] from rfl)
    exact (Script.isPlaceholder_ifBlock _).trans (by simp)
  by_cases hfor : commandId = "for"
  · subst hfor
    apply forLoop_isControl.silent_iff (show _ = ["variable", "values"] from rfl)
    exact (Script.isPlaceholder_forBlock _ _).trans (by simp)
  by_cases hwhile : commandId = "while"
  · subst hwhile
    apply whileLoop_isControl.silent_iff (show _ = ["condition"] from rfl)
    exact (Script.isPlaceholder_whileBlock _).trans (by simp)
  · have hfields : Script.controlFields commandId = [] := by
      simp [Script.controlFields, hif, hfor, hwhile]
    have hplain : Script.isControl commandId = false := by
      simp [Script.isControl, hif, hfor, hwhile]
    rw [hfields]
    constructor
    · intro hsilent
      exact absurd hsilent (not_silent_of_plain hplain id params)
    · rintro ⟨-, field, hfield, -⟩
      cases hfield

/-- Where the fields of a node are its own, what counts as blank is the same for the comment and
for the warning. -/
theorem warned_of_placeholder {node : Node}
    (hkind : ∀ commandId params, node.kind ≠ .command commandId params)
    (h : (default.write node).1.isPlaceholder = true) : (default.write node).2 ≠ [] := by
  obtain ⟨id, kind⟩ := node
  unfold write Node.generate at h ⊢
  cases kind with
  | input path | output path append =>
    rw [ne_eq, Node.blankField_eq_nil, Bool.not_eq_false]
    by_cases hblank : Text.isBlank path = true
    · exact hblank
    · simp [hblank, Fragment.isPlaceholder] at h
  | conditional condition =>
    rw [Script.isPlaceholder_ifBlock, Script.filled_eq_none] at h
    rw [ne_eq, Node.blankField_eq_nil, Bool.not_eq_false]
    exact h
  | forLoop variableName values =>
    rw [Script.isPlaceholder_forBlock, Script.filled_eq_none, Script.filled_eq_none] at h
    rw [ne_eq, List.append_eq_nil_iff, Node.blankField_eq_nil, Node.blankField_eq_nil]
    rintro ⟨hvariable, hvalues⟩
    simp [hvariable, hvalues] at h
  | whileLoop condition =>
    rw [Script.isPlaceholder_whileBlock, Script.filled_eq_none] at h
    rw [ne_eq, Node.blankField_eq_nil, Bool.not_eq_false]
    exact h
  | command commandId params => exact absurd rfl (hkind commandId params)

/-- A node is left out without a warning where it hides a blank, and nowhere else. -/
theorem silent_iff (node : Node) :
    (default.write node).1.isPlaceholder = true ∧ (default.write node).2 = [] ↔
      node.HidesBlank := by
  by_cases hkind : ∃ commandId params, node.kind = .command commandId params
  · obtain ⟨id, kind⟩ := node
    obtain ⟨commandId, params, rfl⟩ := hkind
    rw [silent_command_iff]
    constructor
    · exact fun h => ⟨commandId, params, rfl, h⟩
    · rintro ⟨_, _, hkind, h⟩
      cases hkind
      exact h
  · constructor
    · rintro ⟨hplaceholder, hquiet⟩
      refine absurd hquiet (warned_of_placeholder (fun commandId params h => ?_) hplaceholder)
      exact hkind ⟨commandId, params, h⟩
    · rintro ⟨commandId, params, h, -⟩
      exact absurd ⟨commandId, params, h⟩ hkind

/-! ## What a script leaves out -/

theorem mem_warnings {c : Compiler} {p : Pipeline} {settings : Settings} {script : Compiled}
    (h : c.tryCompile p settings = .ok script) (warning : Warning) :
    warning ∈ script.warnings ↔ ∃ node ∈ p.nodes, warning ∈ (c.write node).2 := by
  unfold tryCompile at h
  rcases hcheck : p.check with flaw | order
  · rw [hcheck] at h
    cases h
  · rw [hcheck] at h
    cases h
    obtain ⟨-, -, hperm, -⟩ := Pipeline.line_of_check hcheck
    simp [assemble, write, hperm.mem_iff]

/-- Without a warning in the script no node has one. -/
theorem write_quiet {c : Compiler} {p : Pipeline} {settings : Settings} {script : Compiled}
    (h : c.tryCompile p settings = .ok script) (hquiet : script.warnings = []) {node : Node}
    (hnode : node ∈ p.nodes) : (c.write node).2 = [] := by
  rw [List.eq_nil_iff_forall_not_mem] at hquiet ⊢
  intro warning hwarning
  exact hquiet warning ((mem_warnings h warning).mpr ⟨node, hnode, hwarning⟩)

/-! ## The law -/

/-- Every warning of a node tells which node it is about, and the node gives a comment and no
warning just where it hides a blank. So in every script that the node is part of its comment has
a warning, but for a hidden blank; and in one without warnings it is left out if and only if it
hides a blank. -/
theorem only_a_hidden_blank_is_left_out_in_silence (node : Node) :
    (∀ warning ∈ (default.write node).2, warning.node = node.id) ∧
    ((default.write node).1.isPlaceholder = true ∧ (default.write node).2 = [] ↔
      node.HidesBlank) ∧
    ∀ (p : Pipeline) (settings : Settings) (script : Compiled),
      default.tryCompile p settings = .ok script → node ∈ p.nodes →
      ((default.write node).1.isPlaceholder = true → ¬ node.HidesBlank →
        ∃ warning ∈ script.warnings, warning.node = node.id) ∧
      (script.warnings = [] →
        ((default.write node).1.isPlaceholder = true ↔ node.HidesBlank)) := by
  refine ⟨fun _ => node_of_mem_write, silent_iff node, ?_⟩
  intro p settings script h hnode
  constructor
  · intro hplaceholder hopen
    have hwarned : (default.write node).2 ≠ [] := fun hquiet =>
      hopen ((silent_iff node).mp ⟨hplaceholder, hquiet⟩)
    obtain ⟨warning, hwarning⟩ := List.exists_mem_of_ne_nil _ hwarned
    exact ⟨warning, (mem_warnings h warning).mpr ⟨node, hnode, hwarning⟩,
      node_of_mem_write hwarning⟩
  · intro hquiet
    rw [← silent_iff node]
    exact (and_iff_left (write_quiet h hquiet hnode)).symm

/-- A condition of one blank, given as a command. -/
def blankCondition : Node := ⟨"check", .command "if" (.ofList [("condition", .string " ")])⟩

theorem blankCondition_isPlaceholder :
    (default.write blankCondition).1.isPlaceholder = true := by decide +kernel

def blankCheck : Pipeline :=
  .chain [⟨"in", .input "in"⟩, blankCondition, ⟨"sort", .command "sort" .empty⟩]

theorem tryCompile_blankCheck :
    ∃ script, default.tryCompile blankCheck .default = .ok script ∧ script.warnings = [] := by
  have hline : blankCheck.check = .ok blankCheck.nodes :=
    Pipeline.check_of_line (by decide) (by simp [blankCheck, Pipeline.chain]) (.refl _) (by decide)
  refine ⟨default.assemble blankCheck.nodes .default, ?_, by decide +kernel⟩
  unfold tryCompile
  rw [hline]
  rfl

theorem a_blank_condition_is_left_out_of_its_line :
    ∃ script, default.tryCompile blankCheck .default = .ok script ∧ script.warnings = [] ∧
      (∀ node ∈ blankCheck.nodes,
        ((default.write node).1.isPlaceholder = true ↔ node.HidesBlank)) ∧
      blankCondition.HidesBlank := by
  obtain ⟨script, hscript, hquiet⟩ := tryCompile_blankCheck
  have hnodes : ∀ node ∈ blankCheck.nodes,
      ((default.write node).1.isPlaceholder = true ↔ node.HidesBlank) := fun node hnode =>
    ((only_a_hidden_blank_is_left_out_in_silence node).2.2 _ _ script hscript hnode).2 hquiet
  have hblank := (hnodes blankCondition (.tail _ (.head _))).mp blankCondition_isPlaceholder
  exact ⟨script, hscript, hquiet, hnodes, hblank⟩

theorem a_node_can_be_left_out_in_silence :
    (¬ ∀ node : Node, (default.write node).1.isPlaceholder = true →
      (default.write node).2 ≠ []) ∧
    ¬ ∀ (p : Pipeline) (settings : Settings) (script : Compiled),
      default.tryCompile p settings = .ok script → script.warnings = [] →
      ∀ node ∈ p.nodes, (default.write node).1.isPlaceholder = false := by
  constructor
  · intro hall
    exact hall blankCondition blankCondition_isPlaceholder (by decide +kernel)
  · intro hall
    obtain ⟨script, hscript, hquiet⟩ := tryCompile_blankCheck
    have hwritten := hall _ _ script hscript hquiet blankCondition (.tail _ (.head _))
    exact Bool.false_ne_true (hwritten.symm.trans blankCondition_isPlaceholder)

end Compiler

end PipeScript
