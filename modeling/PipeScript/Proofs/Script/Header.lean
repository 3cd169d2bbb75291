-- A script as text. In front of its first empty line stands the header: comments, and the lines
-- that turn options on, whatever the description, the author and the version hold. Behind it
-- stands the body as it is. So a script tells its body and all of its settings but those three
-- texts.
import PipeScript.Proofs.Shell.Quoting
import PipeScript.Script.Header

namespace PipeScript

/-! ## The lines of a text -/

namespace Text

/-- The lines of a text. Behind a line end at the end there is one more line, an empty one. -/
def lines (s : String) : List String := (s.toList.splitOn '\n').map String.ofList

theorem lines_append (a b : String) : lines (a ++ "\n" ++ b) = lines a ++ lines b := by
  unfold lines
  rw [← List.map_append, ← List.splitOn_append_cons_self]
  simp

theorem intercalate_lines (s : String) : "\n".intercalate (lines s) = s := by
  apply String.toList_injective
  unfold lines
  rw [String.toList_intercalate, List.map_map]
  simp [Function.comp_def]

theorem lines_injective : Function.Injective lines := by
  intro a b h
  rw [← intercalate_lines a, h, intercalate_lines]

/-- Lines that hold no line end are read back. -/
theorem lines_intercalate {parts : List String} (hne : parts ≠ [])
    (h : ∀ part ∈ parts, '\n' ∉ part.toList) : lines ("\n".intercalate parts) = parts := by
  have hsplit : (['\n'].intercalate (parts.map String.toList)).splitOn '\n'
      = parts.map String.toList :=
    List.splitOn_intercalate '\n' (by simpa using h) (by simpa using hne)
  unfold lines
  rw [String.toList_intercalate, show "\n".toList = ['\n'] from rfl, hsplit]
  simp

end Text

/-! ## What a header is -/

namespace Script

/-- The lines that tell one of the texts: none if it is blank, else one behind a label, with
blanks for its line ends. -/
def Tells (label value : String) (lines : List String) : Prop :=
  if Text.isBlank value then lines = []
  else lines = ["# " ++ label ++ ": " ++ Shell.flatten value]

/-- The letters of the options that are on, in their order. -/
def lettersOn (s : Settings) : List Char :=
  ['e', 'u', 'x'].filter fun c =>
    (c = 'e' && s.exitOnError) || (c = 'u' && s.exitOnUnset) || (c = 'x' && s.trace)

/-- The line that turns some options on. -/
def setLine (letters : List Char) : String := "set -" ++ String.ofList letters

/-- What the lines of a header are, in their order. -/
def IsHeader (s : Settings) (lines : List String) : Prop :=
  ∃ description author version,
    Tells "Description" s.description description ∧ Tells "Author" s.author author ∧
    Tells "Version" s.version version ∧
    lines = ["#!/bin/" ++ s.interpreter.name] ++ description ++ author ++ version
      ++ (if lettersOn s = [] then [] else [setLine (lettersOn s)])
      ++ (if s.pipefail then ["set -o pipefail"] else [])

variable {s t : Settings} {line : String} {letters : List Char}

theorem tells_remark (label value : String) : Tells label value (remark label value) := by
  unfold Tells remark
  split <;> rfl

theorem optionLetters_eq (s : Settings) : optionLetters s = lettersOn s := by
  unfold optionLetters lettersOn
  cases s.exitOnError <;> cases s.exitOnUnset <;> cases s.trace <;> rfl

theorem optionLine_eq (letters : List Char) :
    optionLine letters = if letters = [] then [] else [setLine letters] := by
  cases letters <;> rfl

theorem isHeader_header (s : Settings) : IsHeader s (header s) := by
  refine ⟨_, _, _, tells_remark _ _, tells_remark _ _, tells_remark _ _, ?_⟩
  rw [← optionLine_eq, ← optionLetters_eq]
  rfl

/-! ## What its lines are -/

theorem mem_lettersOn (c : Char) : c ∈ lettersOn s ↔
    (c = 'e' ∧ s.exitOnError = true) ∨ (c = 'u' ∧ s.exitOnUnset = true) ∨
      (c = 'x' ∧ s.trace = true) := by
  unfold lettersOn
  grind

theorem setLine_injective {a b : List Char} (h : setLine a = setLine b) : a = b := by
  have hlists := congrArg String.toList h
  simpa [setLine] using hlists

theorem newline_not_mem_interpreter (i : Interpreter) : '\n' ∉ i.name.toList := by
  cases i <;> decide

theorem comment_of_mem_remark {label value : String} (hlabel : '\n' ∉ label.toList)
    (h : line ∈ remark label value) : ∃ text, '\n' ∉ text.toList ∧ line = "#" ++ text := by
  unfold remark at h
  split at h
  · cases h
  · refine ⟨" " ++ label ++ ": " ++ Shell.flatten value, ?_, ?_⟩
    · simp [hlabel, Shell.newline_not_mem_flatten]
    · rw [List.mem_singleton.mp h, show "# " = "#" ++ " " from rfl]
      simp only [String.append_assoc]

/-- A line of the header is a comment, or turns options on. -/
theorem cases_of_mem_header (h : line ∈ header s) :
    (∃ text, '\n' ∉ text.toList ∧ line = "#" ++ text) ∨
    (lettersOn s ≠ [] ∧ line = setLine (lettersOn s)) ∨
    (s.pipefail = true ∧ line = setLine "o pipefail".toList) := by
  unfold header at h
  rw [optionLetters_eq, optionLine_eq] at h
  simp only [List.mem_append, or_assoc] at h
  rcases h with h | h | h | h | h | h
  · refine .inl ⟨"!/bin/" ++ s.interpreter.name, ?_, ?_⟩
    · simp [newline_not_mem_interpreter]
    · rw [List.mem_singleton.mp h, show "#!/bin/" = "#" ++ "!/bin/" from rfl]
      exact String.append_assoc
  · exact .inl (comment_of_mem_remark (by decide) h)
  · exact .inl (comment_of_mem_remark (by decide) h)
  · exact .inl (comment_of_mem_remark (by decide) h)
  · split at h
    · cases h
    · exact .inr (.inl ⟨‹_›, List.mem_singleton.mp h⟩)
  · split at h
    · exact .inr (.inr ⟨‹_›, List.mem_singleton.mp h⟩)
    · cases h

theorem not_mem_lettersOn {c : Char} (h : c ∉ ['e', 'u', 'x']) : c ∉ lettersOn s :=
  fun hc => h (List.mem_filter.mp hc).1

theorem newline_not_mem_header (h : line ∈ header s) : '\n' ∉ line.toList := by
  rcases cases_of_mem_header h with ⟨text, htext, rfl⟩ | ⟨_, rfl⟩ | ⟨_, rfl⟩
  · simpa using htext
  · have hletters : '\n' ∉ lettersOn s := not_mem_lettersOn (by decide)
    simp [setLine, hletters]
  · decide

theorem ne_empty_of_mem_header (h : line ∈ header s) : line ≠ "" := by
  rintro rfl
  rcases cases_of_mem_header h with ⟨text, _, heq⟩ | ⟨_, heq⟩ | ⟨_, heq⟩
  · simpa using congrArg String.toList heq
  · simpa [setLine] using congrArg String.toList heq
  · exact absurd heq (by decide)

/-! ## What can be read off them -/

/-- The letters behind `set -` tell which options are on. -/
theorem setLine_mem_header : setLine letters ∈ header s ↔
    (letters ≠ [] ∧ letters = lettersOn s) ∨
      (s.pipefail = true ∧ letters = "o pipefail".toList) := by
  constructor
  · intro h
    rcases cases_of_mem_header h with ⟨text, _, heq⟩ | ⟨hne, heq⟩ | ⟨hon, heq⟩
    · have hlists := congrArg String.toList heq
      simp [setLine] at hlists
    · obtain rfl := setLine_injective heq
      exact .inl ⟨hne, rfl⟩
    · exact .inr ⟨hon, setLine_injective heq⟩
  · unfold header
    rw [optionLetters_eq, optionLine_eq]
    rintro (⟨hne, rfl⟩ | ⟨hon, rfl⟩)
    · simp [hne]
    · rw [if_pos hon]
      exact List.mem_append_right _ (List.mem_singleton_self _)

/-- An option is on when its letter stands in a line without an `o`; the line for chains, which
has the same form, holds one. -/
theorem mem_lettersOn_iff_header (c : Char) : c ∈ lettersOn s ↔
    ∃ letters, 'o' ∉ letters ∧ c ∈ letters ∧ setLine letters ∈ header s := by
  constructor
  · intro hc
    refine ⟨lettersOn s, not_mem_lettersOn (by decide), hc, ?_⟩
    exact setLine_mem_header.mpr (.inl ⟨List.ne_nil_of_mem hc, rfl⟩)
  · rintro ⟨letters, ho, hc, hmem⟩
    rcases setLine_mem_header.mp hmem with ⟨_, rfl⟩ | ⟨_, rfl⟩
    · exact hc
    · exact absurd (by decide) ho

theorem pipefail_iff_header : s.pipefail = true ↔ setLine "o pipefail".toList ∈ header s := by
  rw [setLine_mem_header]
  constructor
  · intro h
    exact .inr ⟨h, rfl⟩
  · rintro (⟨_, heq⟩ | ⟨h, _⟩)
    · have ho : 'o' ∉ lettersOn s := not_mem_lettersOn (by decide)
      exact absurd (heq ▸ by decide) ho
    · exact h

theorem interpreter_name_injective {i j : Interpreter} (h : i.name = j.name) : i = j := by
  revert h
  cases i <;> cases j <;> decide

/-- Settings with the same header differ in their texts only. -/
theorem settings_of_header (h : header s = header t) :
    s.interpreter = t.interpreter ∧ s.exitOnError = t.exitOnError ∧
    s.exitOnUnset = t.exitOnUnset ∧ s.trace = t.trace ∧ s.pipefail = t.pipefail := by
  have hletters : ∀ c, c ∈ lettersOn s ↔ c ∈ lettersOn t := by
    intro c
    rw [mem_lettersOn_iff_header, h, ← mem_lettersOn_iff_header]
  simp only [mem_lettersOn] at hletters
  refine ⟨?_, ?_, ?_, ?_, ?_⟩
  · have hfirst : "#!/bin/" ++ s.interpreter.name = "#!/bin/" ++ t.interpreter.name :=
      (List.cons.inj h).1
    apply interpreter_name_injective
    simpa using hfirst
  · exact Bool.eq_iff_iff.mpr (by simpa using hletters 'e')
  · exact Bool.eq_iff_iff.mpr (by simpa using hletters 'u')
  · exact Bool.eq_iff_iff.mpr (by simpa using hletters 'x')
  · rw [Bool.eq_iff_iff, pipefail_iff_header, h, ← pipefail_iff_header]

/-! ## The lines of a script -/

theorem header_ne_nil (s : Settings) : header s ≠ [] := by
  simp [header]

theorem lines_header (s : Settings) : Text.lines ("\n".intercalate (header s)) = header s :=
  Text.lines_intercalate (header_ne_nil s) fun _ => newline_not_mem_header

theorem wrap_eq (body : String) (s : Settings) :
    wrap body s = "\n".intercalate (header s) ++ "\n\n" ++ body ++ "\n" := by
  unfold wrap
  rw [String.intercalate_append_of_ne_nil (header_ne_nil s) (by simp)]
  apply String.toList_injective
  simp [String.intercalate_cons_cons]

theorem lines_wrap (body : String) (s : Settings) :
    Text.lines (wrap body s) = header s ++ "" :: (Text.lines body ++ [""]) := by
  have hparts : wrap body s =
      "\n".intercalate (header s) ++ "\n" ++ ("" ++ "\n" ++ (body ++ "\n" ++ "")) := by
    rw [wrap_eq]
    apply String.toList_injective
    simp
  rw [hparts, Text.lines_append, Text.lines_append, Text.lines_append, lines_header]
  rfl

/-- The header ends before the first empty line. -/
theorem takeWhile_lines_wrap (body : String) (s : Settings) :
    (Text.lines (wrap body s)).takeWhile (· ≠ "") = header s := by
  rw [lines_wrap, List.takeWhile_append_of_pos]
  · simp
  · intro line hline
    simpa using ne_empty_of_mem_header hline

/-- A script is cut in one way only. -/
theorem wrap_inj {body body' : String} (h : wrap body s = wrap body' t) :
    header s = header t ∧ body = body' := by
  have hheader : header s = header t := by
    rw [← takeWhile_lines_wrap body s, h, takeWhile_lines_wrap]
  -- behind the header the lines of the two bodies stand in the same place
  refine ⟨hheader, Text.lines_injective ?_⟩
  have hlines := congrArg Text.lines h
  rw [lines_wrap, lines_wrap, hheader] at hlines
  simpa using hlines

/-! ## The law -/

/-- Whatever the body and the settings hold, a script is its header, an empty line, the body and
a line end. The header has no empty line; its lines are the interpreter, the texts that are not
blank, and the options, in this order. So each line in front of the first empty one is a comment
in which a shell reads nothing, or turns on the options that are on; and scripts that are the
same have the same body and the same settings but for the three texts. -/
theorem the_header_is_inert_and_can_be_cut_off (body : String) (s : Settings) :
    (∃ head, wrap body s = head ++ "\n\n" ++ body ++ "\n" ∧ "" ∉ Text.lines head ∧
      IsHeader s (Text.lines head)) ∧
    (∀ line ∈ (Text.lines (wrap body s)).takeWhile (· ≠ ""),
      ((∃ text, line = "#" ++ text) ∧ Shell.lex line = .ok []) ∨
      line = setLine (lettersOn s) ∨ line = "set -o pipefail") ∧
    ∀ body' t, wrap body' t = wrap body s →
      body' = body ∧ t.interpreter = s.interpreter ∧ t.exitOnError = s.exitOnError ∧
      t.exitOnUnset = s.exitOnUnset ∧ t.trace = s.trace ∧ t.pipefail = s.pipefail := by
  refine ⟨⟨_, wrap_eq body s, ?_, ?_⟩, ?_, ?_⟩
  · rw [lines_header]
    exact fun h => ne_empty_of_mem_header h rfl
  · rw [lines_header]
    exact isHeader_header s
  · rw [takeWhile_lines_wrap]
    intro line hline
    rcases cases_of_mem_header hline with ⟨text, htext, rfl⟩ | ⟨_, heq⟩ | ⟨_, heq⟩
    · have hfills := Shell.fills_comment text.toList htext
      exact .inl ⟨⟨text, rfl⟩, Shell.lex_of_fills (by simpa using hfills)⟩
    · exact .inr (.inl heq)
    · exact .inr (.inr heq)
  · intro body' t h
    obtain ⟨hheader, hbody⟩ := wrap_inj h
    exact ⟨hbody, settings_of_header hheader⟩

/-- Settings with a description that looks like the end of a header. -/
def misleading : Settings :=
  { Settings.default with description := "x\n\nset -x\rrm", author := " \t", trace := true }

/-- Settings that say the same in one line. -/
def candid : Settings :=
  { Settings.default with description := "x  set -x rm", author := "", trace := true }

theorem a_misleading_description_stays_in_its_comment :
    wrap "\nset -e" candid = wrap "\nset -e" misleading ∧
    candid.description ≠ misleading.description ∧ candid.pipefail = misleading.pipefail := by
  have hsame : wrap "\nset -e" candid = wrap "\nset -e" misleading := by decide +kernel
  obtain ⟨_, _, _, _, _, hpipefail⟩ :=
    (the_header_is_inert_and_can_be_cut_off "\nset -e" misleading).2.2 _ _ hsame
  exact ⟨hsame, by decide, hpipefail⟩

end Script

end PipeScript
