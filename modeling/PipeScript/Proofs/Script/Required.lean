-- Parameters that a command cannot do without. Whether one is missing is judged by how it is
-- edited, and whether it is written by where it stands. The two agree for a parameter that is a
-- switch only if it is edited as one. Any other switch can be reported although it is written, and
-- a value for it can be left out in silence.
import Mathlib.Data.List.Nodup
import PipeScript.Proofs.Script.Templates
import PipeScript.Script.Generate

namespace PipeScript

open Command (Definition ParamSpec Registry)
open Script (Builders Warning flagPart valuePart template templateParts)

/-! ## Parameters as they are made -/

namespace Command

namespace ParamSpec

/-- What the constructors and modifiers make, if only templates that are allowed are set. -/
inductive Made (allowed : String → Prop) : ParamSpec → Prop where
  | text (name label : String) : Made allowed (text name label)
  | file (name label : String) : Made allowed (file name label)
  | number (name label : String) : Made allowed (number name label)
  | boolean (name label switch : String) : Made allowed (boolean name label switch)
  | select (name label : String) (options : List String) :
    Made allowed (select name label options)
  | withFlag {spec : ParamSpec} {template : String} :
    Made allowed spec → allowed template → Made allowed (spec.withFlag template)
  | singleQuoted {spec : ParamSpec} : Made allowed spec → Made allowed spec.singleQuoted
  | asAdvanced {spec : ParamSpec} : Made allowed spec → Made allowed spec.asAdvanced
  | asRequired {spec : ParamSpec} : Made allowed spec → Made allowed spec.asRequired
  | withPlaceholder {spec : ParamSpec} (text : String) :
    Made allowed spec → Made allowed (spec.withPlaceholder text)
  | withDefault {spec : ParamSpec} (value : String) :
    Made allowed spec → Made allowed (spec.withDefault value)
  | describe {spec : ParamSpec} (text : String) :
    Made allowed spec → Made allowed (spec.describe text)

/-- The parameter is edited as a switch, or it has a place for its value. -/
def Fits (spec : ParamSpec) : Prop :=
  spec.kind = .boolean ∨ hasHole spec.flagTemplate.toList = true

instance (spec : ParamSpec) : Decidable spec.Fits :=
  inferInstanceAs (Decidable (spec.kind = .boolean ∨ hasHole spec.flagTemplate.toList = true))

/-- A parameter fits as long as every template that is set has a place for the value. -/
theorem Made.fits {spec : ParamSpec}
    (h : spec.Made fun template => hasHole template.toList = true) : spec.Fits := by
  induction h with
  | text | file | number | select => exact .inr (show hasHole valueAlone.toList = true by decide)
  | boolean => exact .inl rfl
  | withFlag _ hallowed _ => exact .inr hallowed
  | singleQuoted _ ih | asAdvanced _ ih | asRequired _ ih => exact ih
  | withPlaceholder _ _ ih | withDefault _ _ ih | describe _ _ ih => exact ih

theorem placement_eq_switch (spec : ParamSpec) :
    spec.placement = .switch ↔
      spec.kind = .boolean ∨ hasHole spec.flagTemplate.toList = false := by
  unfold placement
  by_cases h : spec.kind = .boolean ∨ hasHole spec.flagTemplate.toList = false
  · simp [h]
  · rw [if_neg h]
    split <;> simp [h]

end ParamSpec

/-- The command without one of its parameters. -/
def Definition.without (d : Definition) (i : Nat) : Definition :=
  { d with params := d.params.eraseIdx i }

@[simp] theorem Definition.program_without (d : Definition) (i : Nat) :
    (d.without i).program = d.program := rfl

theorem Definition.exists_split {d : Definition} {i : Nat} {spec : ParamSpec}
    (h : d.params[i]? = some spec) :
    ∃ before after, d.params = before ++ spec :: after ∧
      (d.without i).params = before ++ after := by
  obtain ⟨hi, hget⟩ := List.getElem?_eq_some_iff.mp h
  refine ⟨d.params.take i, d.params.drop (i + 1), ?_, List.eraseIdx_eq_take_drop_succ ..⟩
  rw [← hget, List.getElem_cons_drop, List.take_append_drop]

end Command

/-! ## What a parameter adds to its command -/

namespace Script

variable {d : Definition} {params : Params} {spec : ParamSpec} {i : Nat}

/-- The command is written differently without the parameter. -/
def Adds (d : Definition) (params : Params) (i : Nat) : Prop :=
  template (d.without i) params ≠ template d params

/-- One part more makes the text of a command longer. -/
theorem intercalate_ne (first part : String) (before after : List String) :
    " ".intercalate (first :: (before ++ after)) ≠
      " ".intercalate (first :: (before ++ part :: after)) := by
  intro h
  have hlength := congrArg (fun text => text.toList.length) h
  simp only [toList_intercalate_blank, List.flatMap_append, List.flatMap_cons, List.length_append,
    List.length_cons] at hlength
  omega

theorem template_ne_of_parts {e : Definition} (first part : String) (before after : List String)
    (he : templateParts e params = first :: (before ++ after))
    (hd : templateParts d params = first :: (before ++ part :: after)) :
    template e params ≠ template d params := by
  intro h
  unfold template at h
  rw [he, hd] at h
  exact intercalate_ne first part before after (Fragment.command.inj h).1

/-- A parameter adds something to its command where it adds a part. -/
theorem adds_iff (h : d.params[i]? = some spec) :
    Adds d params i ↔ ¬ (flagPart params spec = none ∧ valuePart params spec = none) := by
  obtain ⟨before, after, hparams, hwithout⟩ := Definition.exists_split h
  unfold Adds
  constructor
  · rintro hne ⟨hflag, hvalue⟩
    apply hne
    have hparts : templateParts (d.without i) params = templateParts d params := by
      simp [templateParts, hparams, hwithout, hflag, hvalue]
    unfold template
    rw [hparts]
    rfl
  · intro hpart
    cases hflag : flagPart params spec with
    | some part =>
      have hvalue : valuePart params spec = none := by
        unfold flagPart at hflag
        unfold valuePart
        cases hplace : spec.placement <;> simp [hplace] at hflag ⊢
      apply template_ne_of_parts d.program part (before.filterMap (flagPart params))
        (after.filterMap (flagPart params) ++ (before ++ after).filterMap (valuePart params))
      · simp [templateParts, hwithout]
      · simp [templateParts, hparams, hflag, hvalue]
    | none =>
      cases hvalue : valuePart params spec with
      | none => exact absurd ⟨hflag, hvalue⟩ hpart
      | some part =>
        apply template_ne_of_parts d.program part
          ((before ++ after).filterMap (flagPart params) ++ before.filterMap (valuePart params))
          (after.filterMap (valuePart params))
        · simp [templateParts, hwithout]
        · simp [templateParts, hparams, hflag, hvalue]

/-- A switch adds something when it is on, anything else when it has a text. -/
theorem parts_eq_none (params : Params) (spec : ParamSpec) :
    flagPart params spec = none ∧ valuePart params spec = none ↔
      if spec.placement = .switch then params.flag spec.name = false
      else params.text? spec.name = none := by
  unfold flagPart valuePart
  cases spec.placement <;> simp

end Script

/-! ## What is reported about a parameter -/

/-- The warnings are different without the parameter. -/
def Node.Reports (node : Node) (d : Definition) (params : Params) (i : Nat) : Prop :=
  node.missingRequired (d.without i) params ≠ node.missingRequired d params

namespace Node

variable {node : Node} {d : Definition} {params : Params} {spec : ParamSpec} {i : Nat}

theorem reports_iff (h : d.params[i]? = some spec) :
    node.Reports d params i ↔ params.lacks spec = true := by
  obtain ⟨before, after, hparams, hwithout⟩ := Definition.exists_split h
  unfold Reports missingRequired
  rw [hparams, hwithout]
  cases hlacks : params.lacks spec with
  | false => simp [hlacks]
  | true =>
    simp only [iff_true]
    intro hsame
    have hlength := congrArg List.length hsame
    simp [hlacks] at hlength

/-- Where names are told apart, the warning names the parameter. -/
theorem reports_iff_mem (h : d.params[i]? = some spec) (hnames : (d.params.map (·.name)).Nodup) :
    node.Reports d params i ↔
      .missingParameter node.id spec.name ∈ node.missingRequired d params := by
  have hspec : spec ∈ d.params := List.mem_of_getElem? h
  rw [reports_iff h]
  unfold missingRequired
  simp only [List.mem_map, List.mem_filter, Warning.missingParameter.injEq, true_and]
  constructor
  · exact fun hlacks => ⟨spec, ⟨hspec, hlacks⟩, rfl⟩
  · rintro ⟨other, ⟨hother, hlacks⟩, hname⟩
    rwa [List.inj_on_of_nodup_map hnames hother hspec hname] at hlacks

end Node

theorem Params.lacks_of_required {params : Params} {spec : ParamSpec}
    (h : spec.required = true) :
    params.lacks spec = true ↔
      if spec.kind = .boolean then params.flag spec.name = false
      else params.text? spec.name = none := by
  unfold lacks
  rw [h, Bool.true_and]
  split <;> simp

/-! ## The law -/

namespace Script

/-- A command that has no builder but its template is written by it, with a warning for each
required parameter that has no value for how it is edited. Where a required parameter fits, it is
reported exactly when it adds nothing to the command. Where it does not fit, it is reported
although it adds its switch just for the value true, and it is left out in silence just for the
texts other than the word. Only a template without a place for the value makes a parameter that
does not fit. -/
theorem only_a_parameter_that_fits_is_reported_when_it_is_left_out (registry : Registry)
    (builders : Builders) (node : Node) (commandId : String) (params : Params) (d : Definition)
    (hnode : node.kind = .command commandId params) (hknown : registry.lookup commandId = some d)
    (hbuilder : builders.builderFor d = template) :
    node.generate registry builders = (template d params, node.missingRequired d params) ∧
    (∀ i spec, d.params[i]? = some spec → spec.required = true →
      ((d.params.map (·.name)).Nodup → (node.Reports d params i ↔
        .missingParameter node.id spec.name ∈ (node.generate registry builders).2)) ∧
      (spec.Fits → (node.Reports d params i ↔ ¬ Adds d params i)) ∧
      (¬ spec.Fits →
        (node.Reports d params i ∧ Adds d params i ↔
          params.get? spec.name = some (.bool true)) ∧
        (¬ node.Reports d params i ∧ ¬ Adds d params i ↔
          params.text? spec.name ≠ none ∧ params.get? spec.name ≠ some (.string "true")))) ∧
    ∀ spec : ParamSpec,
      spec.Made (fun template => ParamSpec.hasHole template.toList = true) → spec.Fits := by
  have hgenerate : node.generate registry builders =
      (template d params, node.missingRequired d params) := by
    unfold Node.generate
    simp only [hnode, hknown, hbuilder]
  refine ⟨hgenerate, ?_, fun spec => ParamSpec.Made.fits⟩
  intro i spec hspec hrequired
  rw [hgenerate]
  refine ⟨Node.reports_iff_mem hspec, ?_, ?_⟩
  · intro hfits
    have hplace : spec.placement = .switch ↔ spec.kind = .boolean := by
      rw [ParamSpec.placement_eq_switch]
      rcases hfits with hkind | hhole
      · simp [hkind]
      · simp [hhole]
    rw [Node.reports_iff hspec, adds_iff hspec, not_not, parts_eq_none,
      Params.lacks_of_required hrequired]
    simp only [hplace]
  · intro hfits
    obtain ⟨hkind, hhole⟩ := not_or.mp hfits
    have hplace : spec.placement = .switch := by
      rw [ParamSpec.placement_eq_switch]
      exact .inr (Bool.eq_false_iff.mpr hhole)
    have hreports : node.Reports d params i ↔ params.text? spec.name = none := by
      rw [Node.reports_iff hspec, Params.lacks_of_required hrequired, if_neg hkind]
    have hadds : Adds d params i ↔ params.flag spec.name = true := by
      rw [adds_iff hspec, parts_eq_none, if_pos hplace, Bool.not_eq_false]
    rw [hreports, hadds]
    unfold Params.text? Params.flag
    rcases params.get? spec.name with _ | (_ | b | n | s | items | members)
    case some.string =>
      by_cases hempty : s = ""
      · simp [hempty]
      · simp [hempty]
    all_goals simp

/-- A width that is given as text, with a template that has no place for it. -/
def width : ParamSpec := ((ParamSpec.text "width" "Width").withFlag "-w").asRequired

def fold : Definition :=
  (Definition.make "fold" "Fold" .text "").withParams
    [width, (ParamSpec.file "file" "File").asRequired]

theorem made_fold : ∀ spec ∈ fold.params, spec.Made fun _ => True := by
  intro spec hspec
  simp only [fold, Definition.withParams, List.mem_cons, List.not_mem_nil, or_false] at hspec
  rcases hspec with rfl | rfl
  · exact ((ParamSpec.Made.text "width" "Width").withFlag trivial).asRequired
  · exact (ParamSpec.Made.file "file" "File").asRequired

def widthAndFile (value : Json) : Params :=
  .ofList [("width", value), ("file", .string "a.txt")]

/-- Folds the lines of a file at a width. -/
def folding (value : Json) : Node := ⟨"n", .command "fold" (widthAndFile value)⟩

theorem lookup_fold : (Registry.ofList [fold]).lookup "fold" = some fold := by decide +kernel

theorem a_width_without_a_place_is_not_written :
    ¬ width.Fits ∧
    (folding (.string "80")).generate (.ofList [fold]) .empty =
      (.command "fold \"a.txt\"" false, []) ∧
    (folding (.bool true)).generate (.ofList [fold]) .empty =
      (.command "fold -w \"a.txt\"" false, [.missingParameter "n" "width"]) ∧
    (¬ (folding (.string "80")).Reports fold (widthAndFile (.string "80")) 0 ∧
      ¬ Adds fold (widthAndFile (.string "80")) 0) ∧
    ((folding (.bool true)).Reports fold (widthAndFile (.bool true)) 0 ∧
      Adds fold (widthAndFile (.bool true)) 0) ∧
    ∀ value, (folding value).Reports fold (widthAndFile value) 1 ↔
      ¬ Adds fold (widthAndFile value) 1 := by
  have hwidth : ¬ width.Fits := by decide
  have hlaw := fun value => (only_a_parameter_that_fits_is_reported_when_it_is_left_out
    (.ofList [fold]) .empty (folding value) "fold" _ fold rfl lookup_fold rfl).2.1
  refine ⟨hwidth, by decide +kernel, by decide +kernel, ?_, ?_, fun value => ?_⟩
  · have hsilent := ((hlaw (.string "80") 0 width rfl rfl).2.2 hwidth).2
    exact hsilent.mpr ⟨by decide +kernel, by decide +kernel⟩
  · have hwrong := ((hlaw (.bool true) 0 width rfl rfl).2.2 hwidth).1
    exact hwrong.mpr (by decide +kernel)
  · exact (hlaw value 1 _ rfl rfl).2.1 (by decide)

theorem a_required_value_can_be_left_out_in_silence :
    ¬ ∀ (registry : Registry) (builders : Builders) (node : Node) (commandId : String)
      (params : Params) (d : Definition), node.kind = .command commandId params →
      registry.lookup commandId = some d → builders.builderFor d = template →
      (∀ spec ∈ d.params, spec.Made fun _ => True) →
      ∀ i spec, d.params[i]? = some spec → spec.required = true →
        (.missingParameter node.id spec.name ∈ (node.generate registry builders).2 ↔
          ¬ Adds d params i) := by
  intro hall
  have hclaim := hall (.ofList [fold]) .empty (folding (.string "80")) "fold" _ fold rfl
    lookup_fold rfl made_fold 0 width rfl rfl
  have hquiet : Warning.missingParameter "n" "width" ∉
      ((folding (.string "80")).generate (.ofList [fold]) .empty).2 := by decide +kernel
  have hnothing : ¬ Adds fold (widthAndFile (.string "80")) 0 := by
    unfold Adds
    decide +kernel
  exact hquiet (hclaim.mpr hnothing)

end Script

end PipeScript
