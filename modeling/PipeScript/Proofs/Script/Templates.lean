-- Commands that are written by their templates. A shell reads the words that the parameters
-- declare and no others, whatever the values hold: the program, the switches that are on and the
-- options that have a value, then the values that stand alone. What no parameter names does not
-- count.
import Mathlib.Data.List.Basic
import PipeScript.Proofs.Script.Argv

namespace PipeScript

open Shell (isPlainWord)

/-! ## Values -/

namespace Params

variable {params other : Params} {name value : String}

/-- Strings that are not empty and numbers have a text, and nothing else has. -/
theorem text?_eq_some : params.text? name = some value ↔
    (params.get? name = some (.string value) ∧ value ≠ "") ∨
      ∃ n : Number, params.get? name = some (.number n) ∧ n.text = value := by
  unfold text?
  rcases params.get? name with _ | (_ | b | n | s | items | members)
  case some.string =>
    simp only [String.isEmpty_iff, Option.some.injEq, Json.string.injEq]
    grind
  all_goals simp

/-- The value true and its word turn a switch on, and nothing else does. -/
theorem flag_eq_true : params.flag name = true ↔
    params.get? name = some (.bool true) ∨ params.get? name = some (.string "true") := by
  unfold flag
  rcases params.get? name with _ | (_ | b | n | s | items | members) <;> simp

theorem text?_congr (h : other.get? name = params.get? name) :
    other.text? name = params.text? name := by
  unfold text?
  rw [h]

theorem flag_congr (h : other.get? name = params.get? name) :
    other.flag name = params.flag name := by
  unfold flag
  rw [h]

end Params

/-! ## Parameters -/

namespace Command

namespace ParamSpec

variable {spec : ParamSpec} {word : String}

/-- The word in front of the value, read off a template that is written out. -/
theorem flagWord_eq (hword : isPlainWord word = true)
    (h : spec.flagTemplate = word ++ " \x7b\x7d") : spec.flagWord = word := by
  simp only [isPlainWord, Bool.and_eq_true, List.all_eq_true] at hword
  unfold flagWord
  rw [h, String.toList_append, List.takeWhile_append_of_pos]
  · simp
  · rintro c hc
    simp only [ne_eq, decide_not, Bool.not_eq_true', decide_eq_false_iff_not]
    rintro rfl
    exact absurd (hword.2 _ hc) (by decide)

/-- A parameter whose template is written out is clear. -/
theorem isClear_of_template
    (hswitch : spec.kind = .boolean → isPlainWord spec.flagTemplate = true)
    (hother : spec.kind ≠ .boolean → spec.flagTemplate = valueAlone ∨
      ∃ word, isPlainWord word = true ∧ spec.flagTemplate = word ++ " \x7b\x7d") :
    spec.IsClear := by
  unfold IsClear
  by_cases hkind : spec.kind = .boolean
  · rw [if_pos hkind]
    exact hswitch hkind
  · rw [if_neg hkind]
    rcases hother hkind with h | ⟨word, hword, h⟩
    · exact .inl h
    · rw [flagWord_eq hword h]
      exact .inr ⟨hword, h⟩

end ParamSpec

end Command

/-! ## What counts -/

namespace Script

open Command (Definition ParamSpec)

variable {d : Definition} {params other : Params}

theorem flagPart_congr {spec : ParamSpec} (h : other.get? spec.name = params.get? spec.name) :
    flagPart other spec = flagPart params spec := by
  unfold flagPart
  rw [Params.text?_congr h, Params.flag_congr h]

theorem valuePart_congr {spec : ParamSpec} (h : other.get? spec.name = params.get? spec.name) :
    valuePart other spec = valuePart params spec := by
  unfold valuePart
  rw [Params.text?_congr h]

/-- A command depends only on the values that its parameters name. -/
theorem template_congr (h : ∀ spec ∈ d.params, other.get? spec.name = params.get? spec.name) :
    template d other = template d params := by
  have hflags : d.params.filterMap (flagPart other) = d.params.filterMap (flagPart params) :=
    List.filterMap_congr fun spec hspec => flagPart_congr (h spec hspec)
  have hvalues : d.params.filterMap (valuePart other) = d.params.filterMap (valuePart params) :=
    List.filterMap_congr fun spec hspec => valuePart_congr (h spec hspec)
  unfold template templateParts
  rw [hflags, hvalues]

/-! ## The law -/

/-- Where the program and the switches are plain words, and every other template is the value
alone or a plain word, a blank and the value, a shell reads these words and no others: the
program; in the order of declaration, the word of each switch that is on and the flag and the
value of each option that has a value; then in the order of declaration the values that stand
alone. Each value is one word, with everything it holds. A switch is on with the value true or
its word; strings that are not empty and numbers are values; and what no parameter names changes
nothing. -/
theorem a_template_is_read_as_the_declared_words (d : Definition) (params : Params)
    (hprogram : isPlainWord d.program = true)
    (hswitch : ∀ spec ∈ d.params, spec.kind = .boolean → isPlainWord spec.flagTemplate = true)
    (hother : ∀ spec ∈ d.params, spec.kind ≠ .boolean →
      spec.flagTemplate = ParamSpec.valueAlone ∨
      ∃ word, isPlainWord word = true ∧ spec.flagTemplate = word ++ " \x7b\x7d") :
    (∃ text, template d params = .command text d.producesOutput ∧
      Shell.lex text = .ok (asWords (d.templateArgv params))) ∧
    (∀ name, params.flag name = true ↔
      params.get? name = some (.bool true) ∨ params.get? name = some (.string "true")) ∧
    (∀ name value, params.text? name = some value ↔
      (params.get? name = some (.string value) ∧ value ≠ "") ∨
        ∃ n : Number, params.get? name = some (.number n) ∧ n.text = value) ∧
    ∀ other : Params, (∀ spec ∈ d.params, other.get? spec.name = params.get? spec.name) →
      template d other = template d params := by
  have hclear : d.IsClear :=
    ⟨hprogram, fun spec hm => ParamSpec.isClear_of_template (hswitch spec hm) (hother spec hm)⟩
  obtain ⟨text, htemplate, hspells⟩ := template_runs params hclear
  refine ⟨⟨text, htemplate, Shell.lex_of_fills hspells.fills⟩, ?_, ?_, ?_⟩
  · exact fun _ => Params.flag_eq_true
  · exact fun _ _ => Params.text?_eq_some
  · exact fun _ => template_congr

/-- A search with a value that stands alone declared in front of its flags. -/
def search : Definition :=
  { Definition.make "search" "Search" .text "" with
    program := "grep"
    params := [.text "file" "File",
      ((ParamSpec.text "pattern" "Pattern").withFlag "-e \x7b\x7d").singleQuoted,
      .boolean "ignore" "Ignore case" "-i", .number "more" "More"] }

/-- Values that look like templates, quotes, flags and more lines. -/
def hostile : List (String × Json) :=
  [("pattern", .string "\x7b\x7d 'a' \"$b\"\n-v"), ("ignore", .string "true"),
    ("file", .string "; rm \x7b\x7d"), ("more", .number (.int (-1)))]

theorem hostile_values_are_words :
    (∃ text, template search (.ofList hostile) = .command text false ∧
      Shell.lex text = .ok [.word "grep", .word "-e", .word "\x7b\x7d 'a' \"$b\"\n-v",
        .word "-i", .word "; rm \x7b\x7d", .word "-1"]) ∧
    template search (.ofList (("stray", .bool true) :: hostile))
      = template search (.ofList hostile) := by
  have hswitch : ∀ spec ∈ search.params, spec.kind = .boolean →
      isPlainWord spec.flagTemplate = true := by
    simp +decide
  have hother : ∀ spec ∈ search.params, spec.kind ≠ .boolean →
      spec.flagTemplate = ParamSpec.valueAlone ∨
      ∃ word, isPlainWord word = true ∧ spec.flagTemplate = word ++ " \x7b\x7d" := by
    intro spec hspec hkind
    simp only [search, List.mem_cons, List.not_mem_nil, or_false] at hspec
    rcases hspec with rfl | rfl | rfl | rfl
    · exact .inl rfl
    · exact .inr ⟨"-e", by decide, by decide⟩
    · exact absurd rfl hkind
    · exact .inl rfl
  obtain ⟨hwords, _, _, hstray⟩ := a_template_is_read_as_the_declared_words search
    (.ofList hostile) (by decide) hswitch hother
  refine ⟨hwords, hstray _ ?_⟩
  simp +decide

end Script

end PipeScript
