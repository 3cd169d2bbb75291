-- What quoting is for: a text in any quoting is one word to the shell, and the word is the
-- text. Nothing in it is an operator, a blank or an expansion, whatever it holds.
import PipeScript.Proofs.Shell.Lexer

namespace PipeScript

namespace Shell

open Lexer

/-! ## What is met on the way -/

/-- What means something outside of quotes. -/
def meaningful : List Char :=
  [' ', '\t', '\n', '|', '>', '#', '\\', '\x27', '"', '$', '\x60'] ++ specials

/-- What only takes away the meaning of something else. -/
def quoters : List Char := ['\\', '\x27', '"']

/-- Whether a character is more than itself where the reader stands: a blank, a line end, an
operator, an expansion, a pattern or a comment that nothing quotes, or a line end that a
backslash takes away. -/
def Mode.heeds : Mode → Char → Bool
  | .plain _, c => meaningful.contains c && !quoters.contains c
  | .escaped _, c | .doubleEscaped _, c => c = '\n'
  | .single _, _ => false
  | .double _, c => c = '$' || c = '\x60'
  | .bar, _ | .greater, _ | .comment, _ => true

/-- The reader goes from one place to another over a text, and every character on the way is
only itself or quotes another one. -/
inductive Passes : List Char → Lexer → Lexer → Prop
  | nil (s : Lexer) : Passes [] s s
  | cons {c : Char} {text : List Char} {s t u : Lexer} :
      s.mode.heeds c = false → s.step c = .ok t → Passes text t u → Passes (c :: text) s u

namespace Passes

variable {text more : List Char} {s t u : Lexer}

theorem run (h : Passes text s t) : Run text s t := by
  induction h with
  | nil s => exact run_nil s
  | cons _ hc _ ih => exact run_cons hc ih

theorem append (h : Passes text s t) (hmore : Passes more t u) : Passes (text ++ more) s u := by
  induction h with
  | nil s => exact hmore
  | cons hquiet hc _ ih => exact .cons hquiet hc (ih hmore)

theorem single {c : Char} (hquiet : s.mode.heeds c = false) (hc : s.step c = .ok t) :
    Passes [c] s t := .cons hquiet hc (.nil t)

end Passes

/-! ## Between quotes -/

theorem passes_escapeDouble (tokens : List Token) (word : List Char) (c : Char) :
    Passes (escapeDouble c) ⟨tokens, .double word⟩ ⟨tokens, .double (word ++ [c])⟩ := by
  unfold escapeDouble
  by_cases hc : isActive c = true
  · -- Behind the backslash the character loses its meaning.
    rw [if_pos hc]
    simp only [isActive, Bool.or_eq_true, decide_eq_true_eq, or_assoc] at hc
    have hne : c ≠ '\n' := by rintro rfl; revert hc; decide
    refine .cons (t := ⟨tokens, .doubleEscaped word⟩) rfl rfl (.single ?_ ?_)
    · simpa [Mode.heeds] using hne
    · simp only [step, if_neg hne, if_pos hc]
  · rw [if_neg hc]
    simp only [isActive, Bool.or_eq_true, decide_eq_true_eq, or_assoc, not_or] at hc
    refine .single ?_ ?_
    · simp [Mode.heeds, hc]
    · simp only [step, hc, or_self, if_false]

theorem passes_double (tokens : List Token) (word text : List Char) :
    Passes (text.flatMap escapeDouble) ⟨tokens, .double word⟩
      ⟨tokens, .double (word ++ text)⟩ := by
  induction text generalizing word with
  | nil => simpa using Passes.nil _
  | cons c text ih =>
    rw [List.flatMap_cons, List.append_cons]
    exact (passes_escapeDouble tokens word c).append (ih _)

theorem passes_escapeSingle (tokens : List Token) (word : List Char) (c : Char) :
    Passes (escapeSingle c) ⟨tokens, .single word⟩ ⟨tokens, .single (word ++ [c])⟩ := by
  unfold escapeSingle
  by_cases hc : c = '\x27'
  · -- Out of the quotes, one behind a backslash, and in again.
    rw [if_pos hc, hc]
    exact .cons rfl rfl (.cons rfl rfl (.cons rfl rfl (.single rfl rfl)))
  · rw [if_neg hc]
    exact .single rfl (if_neg hc)

theorem passes_single (tokens : List Token) (word text : List Char) :
    Passes (text.flatMap escapeSingle) ⟨tokens, .single word⟩
      ⟨tokens, .single (word ++ text)⟩ := by
  induction text generalizing word with
  | nil => simpa using Passes.nil _
  | cons c text ih =>
    rw [List.flatMap_cons, List.append_cons]
    exact (passes_escapeSingle tokens word c).append (ih _)

/-! ## Plain words -/

theorem not_meaningful_of_isPlain {c : Char} (h : isPlain c = true) : c ∉ meaningful := by
  have hall : meaningful.all (fun m => !isPlain m) = true := by decide
  intro hm
  have hc := List.all_eq_true.mp hall c hm
  rw [h] at hc
  cases hc

theorem passes_isPlain (tokens : List Token) (word : Option (List Char)) (c : Char)
    (h : isPlain c = true) : Passes [c] ⟨tokens, .plain word⟩
      ⟨tokens, .plain (some (word.getD [] ++ [c]))⟩ := by
  have hc := not_meaningful_of_isPlain h
  refine .single (by simp [Mode.heeds, hc]) ?_
  simp only [meaningful, List.cons_append, List.nil_append, List.mem_cons, not_or] at hc
  simp only [step, plainStep, hc, or_self, false_and, if_false]

theorem passes_plain (tokens : List Token) (word text : List Char)
    (h : ∀ c ∈ text, isPlain c = true) :
    Passes text ⟨tokens, .plain (some word)⟩ ⟨tokens, .plain (some (word ++ text))⟩ := by
  induction text generalizing word with
  | nil => simpa using Passes.nil _
  | cons c text ih =>
    rw [List.append_cons]
    exact (passes_isPlain tokens _ c (h c List.mem_cons_self)).append
      (ih _ fun d hd => h d (List.mem_cons_of_mem c hd))

/-! ## Every quoting is one word -/

theorem passes_doubleQuote (s : String) (tokens : List Token) :
    Passes (doubleQuote s).toList (between tokens) ⟨tokens, .plain (some s.toList)⟩ := by
  rw [doubleQuote, String.toList_ofList]
  refine .cons (t := ⟨tokens, .double []⟩) rfl rfl ?_
  exact (passes_double tokens [] s.toList).append (.single rfl rfl)

theorem passes_singleQuote (s : String) (tokens : List Token) :
    Passes (singleQuote s).toList (between tokens) ⟨tokens, .plain (some s.toList)⟩ := by
  rw [singleQuote, String.toList_ofList]
  refine .cons (t := ⟨tokens, .single []⟩) rfl rfl ?_
  exact (passes_single tokens [] s.toList).append (.single rfl rfl)

theorem passes_plainWord {s : String} (h : isPlainWord s = true) (tokens : List Token) :
    Passes s.toList (between tokens) ⟨tokens, .plain (some s.toList)⟩ := by
  unfold isPlainWord at h
  cases hs : s.toList with
  | nil => simp [hs] at h
  | cons c text =>
    simp only [hs, List.isEmpty_cons, Bool.not_false, List.all_cons, Bool.true_and,
      Bool.and_eq_true, List.all_eq_true] at h
    exact (passes_isPlain tokens none c h.1).append (passes_plain tokens [c] text h.2)

/-- Whatever the text and the quoting, the reader comes out with the text as its word. -/
theorem passes_quote (s : String) (quoting : Quoting) (tokens : List Token) :
    Passes (quote s quoting).toList (between tokens) ⟨tokens, .plain (some s.toList)⟩ := by
  cases quoting with
  | double => exact passes_doubleQuote s tokens
  | single => exact passes_singleQuote s tokens
  | raw =>
    unfold quote
    by_cases h : isPlainWord s = true
    · rw [if_pos h]
      exact passes_plainWord h tokens
    · rw [if_neg h]
      exact passes_doubleQuote s tokens

/-- A text that the reader has gone over is a word. -/
theorem spells_of_passes {text : List Char} {s : String}
    (h : ∀ tokens, Passes text (between tokens) ⟨tokens, .plain (some s.toList)⟩) :
    Spells text [.word s] := by
  intro tokens
  have hends := ends_word tokens s.toList
  rw [String.ofList_toList] at hends
  exact ⟨_, (h tokens).run, hends⟩

theorem spells_doubleQuote (s : String) : Spells (doubleQuote s).toList [.word s] :=
  spells_of_passes (passes_doubleQuote s)

theorem spells_plainWord {s : String} (h : isPlainWord s = true) :
    Spells s.toList [.word s] :=
  spells_of_passes (passes_plainWord h)

theorem spells_quote (s : String) (quoting : Quoting) :
    Spells (quote s quoting).toList [.word s] :=
  spells_of_passes (passes_quote s quoting)

/-! ## Comments -/

theorem newline_not_mem_flatten (s : String) : '\n' ∉ (flatten s).toList := by
  rw [flatten, String.toList_ofList, List.mem_map]
  rintro ⟨c, -, hc⟩
  unfold flattenChar at hc
  split at hc
  · exact absurd hc (by decide)
  · rename_i h
    exact h (.inr hc)

/-- A text behind a hash says nothing once it is flat. -/
theorem fills_flatten (s : String) : Fills (flatten ("#" ++ s)).toList [] := by
  have h := newline_not_mem_flatten ("#" ++ s)
  simp only [flatten, String.toList_ofList, String.toList_append] at h ⊢
  exact fills_comment _ fun hm => h (List.mem_cons_of_mem _ hm)

end Shell

end PipeScript
