-- The words that a command is meant to run with, and that its builder writes just these:
-- the program, its flags, and each value that is there as one word, whatever it holds.
import PipeScript.Proofs.Command.Histories
import PipeScript.Proofs.Shell.Quoting
import PipeScript.Script.Builder

namespace PipeScript

open Shell (Spells isPlainWord)

/-! ## The words of a command -/

namespace Command

namespace ParamSpec

/-- What stands in front of the value: the template up to the first blank. -/
def flagWord (spec : ParamSpec) : String :=
  String.ofList (spec.flagTemplate.toList.takeWhile (· ≠ ' '))

/-- A switch is a plain word. Anything else is the value alone, or a plain word, a blank and
the value. -/
def IsClear (spec : ParamSpec) : Prop :=
  if spec.kind = .boolean then isPlainWord spec.flagTemplate = true
  else spec.flagTemplate = valueAlone ∨
    (isPlainWord spec.flagWord = true ∧ spec.flagTemplate = spec.flagWord ++ " \x7b\x7d")

instance (spec : ParamSpec) : Decidable spec.IsClear :=
  inferInstanceAs (Decidable (if spec.kind = .boolean then isPlainWord spec.flagTemplate = true
    else spec.flagTemplate = valueAlone ∨
      (isPlainWord spec.flagWord = true ∧ spec.flagTemplate = spec.flagWord ++ " \x7b\x7d")))

/-- The word of a switch that is on. -/
def switchWords (params : Params) (spec : ParamSpec) : List String :=
  if spec.kind = .boolean ∧ params.flag spec.name = true then [spec.flagTemplate] else []

/-- The flag and the value of an option that has one. -/
def optionWords (params : Params) (spec : ParamSpec) : List String :=
  if spec.kind = .boolean ∨ spec.flagTemplate = valueAlone then []
  else (params.text? spec.name).toList.flatMap fun value => [spec.flagWord, value]

/-- A value that stands alone. -/
def valueWords (params : Params) (spec : ParamSpec) : List String :=
  if spec.kind ≠ .boolean ∧ spec.flagTemplate = valueAlone then (params.text? spec.name).toList
  else []

end ParamSpec

namespace Definition

/-- Nothing in the texts of the command means anything to a shell. -/
structure IsClear (d : Definition) : Prop where
  program : isPlainWord d.program = true
  params : ∀ spec ∈ d.params, spec.IsClear

/-- The program, the flags in the order of declaration, then the values. -/
def templateArgv (d : Definition) (params : Params) : List String :=
  d.program :: (d.params.flatMap (fun spec => spec.switchWords params ++ spec.optionWords params)
    ++ d.params.flatMap (·.valueWords params))

/-- Two sets, or one that is deleted. -/
def translateArgv (d : Definition) (params : Params) : List String :=
  match params.text? "set1", params.text? "set2" with
  | some source, some target => [d.program, source, target]
  | some source, none => [d.program, "-d", source]
  | none, _ => [d.program]

/-- The path in front of the options. -/
def searchArgv (d : Definition) (params : Params) : List String :=
  d.program :: ((params.text? "path").toList ++ d.params.flatMap (·.optionWords params))

/-- The words that a command is run with. -/
def argv (d : Definition) (params : Params) : List String :=
  if d.id = "tr" then d.translateArgv params
  else if d.id = "find" then d.searchArgv params
  else d.templateArgv params

end Definition

/-! ## Templates -/

namespace ParamSpec

theorem hasHole_append {front : List Char} (h : '\x7b' ∉ front) :
    hasHole (front ++ ['\x7b', '\x7d']) = true := by
  induction front with
  | nil => rfl
  | cons c front ih =>
    rw [List.mem_cons, not_or] at h
    rw [List.cons_append, hasHole]
    · exact ih h.2
    · rintro rest rfl
      exact absurd rfl h.1

theorem fillChars_append {front : List Char} (h : '\x7b' ∉ front) (value : List Char) :
    fillChars value (front ++ ['\x7b', '\x7d']) = front ++ value := by
  induction front with
  | nil => simp [fillChars]
  | cons c front ih =>
    rw [List.mem_cons, not_or] at h
    rw [List.cons_append, fillChars, ih h.2, List.cons_append]
    rintro rest rfl
    exact absurd rfl h.1

theorem brace_not_mem {word : String} (h : isPlainWord word = true) :
    '\x7b' ∉ (word ++ " ").toList := by
  simp only [isPlainWord, Bool.and_eq_true, List.all_eq_true] at h
  rw [String.toList_append, List.mem_append]
  rintro (hm | hm)
  · exact absurd (h.2 _ hm) (by decide)
  · exact absurd hm (by decide)

variable {spec : ParamSpec}

/-- The template of an option, cut in front of the hole. -/
theorem toList_flagTemplate (h : spec.flagTemplate = spec.flagWord ++ " \x7b\x7d") :
    spec.flagTemplate.toList = (spec.flagWord ++ " ").toList ++ ['\x7b', '\x7d'] := by
  rw [h]
  simp

theorem placement_option (hkind : spec.kind ≠ .boolean)
    (hword : isPlainWord spec.flagWord = true)
    (htemplate : spec.flagTemplate = spec.flagWord ++ " \x7b\x7d") :
    spec.flagTemplate ≠ valueAlone ∧ spec.placement = .option := by
  have hlist := toList_flagTemplate htemplate
  have hne : spec.flagTemplate ≠ valueAlone := by
    -- The blank makes it longer.
    intro heq
    rw [heq] at hlist
    have hlength := congrArg List.length hlist
    simp [valueAlone] at hlength
  have hhole : hasHole spec.flagTemplate.toList = true := by
    rw [hlist]
    exact hasHole_append (brace_not_mem hword)
  refine ⟨hne, ?_⟩
  unfold placement
  rw [if_neg (by simp [hkind, hhole]), if_neg hne]

theorem fill_option (hword : isPlainWord spec.flagWord = true)
    (htemplate : spec.flagTemplate = spec.flagWord ++ " \x7b\x7d") (value : String) :
    (spec.fill value).toList = spec.flagWord.toList ++ ' ' :: value.toList := by
  rw [fill, String.toList_ofList, toList_flagTemplate htemplate,
    fillChars_append (brace_not_mem hword)]
  simp

/-- The three kinds of clear parameters. -/
theorem IsClear.cases (h : spec.IsClear) :
    (spec.kind = .boolean ∧ spec.placement = .switch ∧ isPlainWord spec.flagTemplate = true) ∨
    (spec.kind ≠ .boolean ∧ spec.flagTemplate = valueAlone ∧ spec.placement = .positional) ∨
    (spec.kind ≠ .boolean ∧ spec.flagTemplate ≠ valueAlone ∧ spec.placement = .option ∧
      isPlainWord spec.flagWord = true ∧ ∀ value, (spec.fill value).toList =
        spec.flagWord.toList ++ ' ' :: value.toList) := by
  unfold IsClear at h
  by_cases hkind : spec.kind = .boolean
  · rw [if_pos hkind] at h
    exact .inl ⟨hkind, if_pos (.inl hkind), h⟩
  · rw [if_neg hkind] at h
    rcases h with htemplate | ⟨hword, htemplate⟩
    · refine .inr (.inl ⟨hkind, htemplate, ?_⟩)
      unfold placement
      rw [if_neg (by simp [hkind, htemplate, valueAlone, hasHole]), if_pos htemplate]
    · obtain ⟨hne, hplacement⟩ := placement_option hkind hword htemplate
      exact .inr (.inr ⟨hkind, hne, hplacement, hword, fill_option hword htemplate⟩)

end ParamSpec

end Command

/-! ## The parts of a command line -/

namespace Script

open Command (Definition ParamSpec Registry)

variable {d : Definition} {spec : ParamSpec} (params : Params)

/-- Words as tokens. -/
def asWords (words : List String) : List Shell.Token := words.map .word

/-- A part that is there spells the words; one that is not there has none. -/
def Writes (part : Option String) (words : List String) : Prop :=
  match part with
  | none => words = []
  | some text => Spells text.toList (asWords words)

theorem flagPart_writes (h : spec.IsClear) :
    Writes (flagPart params spec) (spec.switchWords params ++ spec.optionWords params) := by
  unfold flagPart ParamSpec.switchWords ParamSpec.optionWords
  rcases h.cases with ⟨hkind, hplace, hplain⟩ | ⟨hkind, htemplate, hplace⟩ |
    ⟨hkind, htemplate, hplace, hplain, hfill⟩
  · rw [hplace]
    cases hflag : params.flag spec.name with
    | false => simp [Writes, hkind]
    | true => simpa [Writes, hkind, asWords] using Shell.spells_plainWord hplain
  · rw [hplace]
    simp [Writes, hkind, htemplate]
  · rw [hplace]
    cases htext : params.text? spec.name with
    | none => simp [Writes, hkind]
    | some value =>
      have hspells := (Shell.spells_plainWord hplain).join (Shell.spells_quote value spec.quoting)
      rw [← hfill] at hspells
      simpa [Writes, hkind, htemplate, asWords] using hspells

theorem valuePart_writes (h : spec.IsClear) :
    Writes (valuePart params spec) (spec.valueWords params) := by
  unfold valuePart ParamSpec.valueWords
  rcases h.cases with ⟨hkind, hplace, -⟩ | ⟨hkind, htemplate, hplace⟩ |
    ⟨hkind, htemplate, hplace, -⟩
  · rw [hplace]
    simp [Writes, hkind]
  · rw [hplace]
    cases htext : params.text? spec.name with
    | none => simp [Writes]
    | some value =>
      simpa [Writes, hkind, htemplate, asWords] using Shell.spells_quote value spec.quoting
  · rw [hplace]
    simp [Writes, htemplate]

theorem searchPart_writes (h : spec.IsClear) :
    Writes (searchPart params spec) (spec.optionWords params) := by
  have hflag := flagPart_writes params h
  unfold searchPart
  rcases h.cases with ⟨hkind, hplace, -⟩ | ⟨hkind, htemplate, hplace⟩ |
    ⟨hkind, htemplate, hplace, -⟩
  · simp [Writes, hplace, ParamSpec.optionWords, hkind]
  · simp [Writes, hplace, ParamSpec.optionWords, htemplate]
  · rw [if_pos hplace]
    simpa [ParamSpec.switchWords, hkind] using hflag

/-- A text with more parts behind it, a blank in front of each. -/
theorem spells_parts {a : List Char} {x : List Shell.Token} (ha : Spells a x)
    {part : ParamSpec → Option String} {words : ParamSpec → List String} {specs : List ParamSpec}
    (h : ∀ spec ∈ specs, Writes (part spec) (words spec)) :
    Spells (a ++ (specs.filterMap part).flatMap fun text => ' ' :: text.toList)
      (x ++ asWords (specs.flatMap words)) := by
  induction specs generalizing a x with
  | nil => simpa [asWords] using ha
  | cons spec specs ih =>
    have hhere := h spec List.mem_cons_self
    have hrest : ∀ spec ∈ specs, Writes (part spec) (words spec) :=
      fun other hm => h other (List.mem_cons_of_mem spec hm)
    unfold Writes at hhere
    cases hpart : part spec with
    | none =>
      simp only [hpart] at hhere
      simpa [hpart, hhere] using ih ha hrest
    | some text =>
      simp only [hpart] at hhere
      simpa [hpart, asWords] using ih (ha.join hhere) hrest

/-- Parts with blanks in between. -/
theorem toList_intercalate_blank (first : String) (parts : List String) :
    (" ".intercalate (first :: parts)).toList
      = first.toList ++ parts.flatMap fun text => ' ' :: text.toList := by
  induction parts generalizing first with
  | nil => simp
  | cons part parts ih => simp [String.intercalate_cons_cons, ih part]

/-! ## Builders -/

/-- The fragment is a command that runs with these words. -/
def Runs (fragment : Fragment) (argv : List String) (pipesOnward : Bool) : Prop :=
  ∃ text, fragment = .command text pipesOnward ∧ Spells text.toList (asWords argv)

theorem template_runs (h : d.IsClear) :
    Runs (template d params) (d.templateArgv params) d.producesOutput := by
  refine ⟨_, rfl, ?_⟩
  have hflags := spells_parts (Shell.spells_plainWord h.program)
    fun spec hm => flagPart_writes params (h.params spec hm)
  have hvalues := spells_parts hflags fun spec hm => valuePart_writes params (h.params spec hm)
  unfold templateParts
  rw [toList_intercalate_blank]
  simpa [Definition.templateArgv, asWords] using hvalues

theorem translate_runs (h : d.IsClear) :
    Runs (translate d params) (d.translateArgv params) d.producesOutput := by
  refine ⟨_, rfl, ?_⟩
  have hprogram := Shell.spells_plainWord h.program
  unfold Definition.translateArgv
  cases params.text? "set1" with
  | none => simpa [asWords] using hprogram
  | some source =>
    have hsource := Shell.spells_doubleQuote source
    cases params.text? "set2" with
    | none =>
      have hdelete := Shell.spells_plainWord (s := "-d") (by decide)
      simpa [asWords] using (hprogram.join hdelete).join hsource
    | some target =>
      simpa [asWords] using (hprogram.join hsource).join (Shell.spells_doubleQuote target)

theorem searchFiles_runs (h : d.IsClear) :
    Runs (searchFiles d params) (d.searchArgv params) d.producesOutput := by
  refine ⟨_, rfl, ?_⟩
  have hprogram := Shell.spells_plainWord h.program
  have hoption : ∀ spec ∈ d.params, Writes (searchPart params spec) (spec.optionWords params) :=
    fun spec hm => searchPart_writes params (h.params spec hm)
  rw [toList_intercalate_blank]
  unfold Definition.searchArgv
  cases params.text? "path" with
  | none => simpa [asWords] using spells_parts hprogram hoption
  | some path =>
    have hpath := hprogram.join (Shell.spells_doubleQuote path)
    simpa [asWords] using spells_parts hpath hoption

/-- The commands whose text is shell code. -/
def isControl (id : String) : Bool := id = "if" || id = "for" || id = "while"

/-- A command that goes by the name of its program has one layout by either. -/
theorem builderFor_builtin (hname : d.program = d.id) :
    Builders.builtin.builderFor d = (builtinBuilder? d.id).getD template := by
  unfold Builders.builderFor
  rw [hname, Option.or_self]
  rfl

theorem builderFor_runs (h : d.IsClear) (hname : d.program = d.id)
    (hcontrol : isControl d.id = false) :
    Runs (Builders.builtin.builderFor d d params) (d.argv params) d.producesOutput := by
  simp only [isControl, Bool.or_eq_false_iff, decide_eq_false_iff_not] at hcontrol
  obtain ⟨⟨hif, hfor⟩, hwhile⟩ := hcontrol
  rw [builderFor_builtin hname]
  unfold builtinBuilder? Definition.argv
  by_cases htr : d.id = "tr"
  · rw [if_pos htr, if_pos htr]
    exact translate_runs params h
  · rw [if_neg htr, if_neg htr]
    by_cases hfind : d.id = "find"
    · rw [if_pos hfind, if_pos hfind]
      exact searchFiles_runs params h
    · rw [if_neg hfind, if_neg hfind, if_neg hif, if_neg hfor, if_neg hwhile]
      exact template_runs params h

theorem builtin_isClear : ∀ d ∈ Registry.builtin.commands,
    isPlainWord d.program = true ∧ (∀ spec ∈ d.params, spec.IsClear) ∧ d.program = d.id := by
  decide +kernel

theorem lookup_builtin {id : String} (h : Registry.builtin.lookup id = some d) :
    d.IsClear ∧ d.program = d.id ∧ d.id = id := by
  have hid := Registry.inStep_builtin.id_of_lookup h
  have hmem := (Registry.inStep_builtin.mem_commands d).mpr (hid ▸ h)
  obtain ⟨hprogram, hparams, hname⟩ := builtin_isClear d hmem
  exact ⟨⟨hprogram, hparams⟩, hname, hid⟩

end Script

end PipeScript
