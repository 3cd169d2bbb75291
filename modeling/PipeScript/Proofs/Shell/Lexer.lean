-- How a shell reads a script into tokens, one character at a time: blanks and line ends,
-- pipes, redirects, comments, backslashes and the two kinds of quotes. Everything else that
-- means something to a shell is refused, so a script that is read has none of it.
-- The laws say what a text adds to the tokens: `Reads`, `Spells` and `Fills` differ in what
-- may follow the text.
import PipeScript.Shell.Quote

namespace PipeScript

namespace Shell

/-! ## Tokens -/

inductive Token where
  | word (value : String)
  | pipe
  | newline
  /-- `>`, or `>>` for more at the end of a file. -/
  | redirect (append : Bool)
  deriving DecidableEq, Repr

/-- Why a script is refused. -/
inductive LexError where
  /-- A quote that is never closed, or a backslash at the end. -/
  | unclosed
  /-- A dollar sign or a backquote that is not quoted. -/
  | expansion
  /-- Something else that means more than itself and is not quoted. -/
  | special (c : Char)
  deriving DecidableEq, Repr

/-! ## The reader -/

/-- Where the reader stands. A word that has begun may still be empty. -/
inductive Mode where
  /-- Outside of quotes. -/
  | plain (word : Option (List Char))
  /-- Behind a backslash outside of quotes. -/
  | escaped (word : Option (List Char))
  | single (word : List Char)
  | double (word : List Char)
  /-- Behind a backslash between double quotes. -/
  | doubleEscaped (word : List Char)
  /-- Behind a bar, which must not be the first of two. -/
  | bar
  /-- Behind a `>`, which may be the first of two. -/
  | greater
  | comment
  deriving DecidableEq, Repr

/-- The tokens so far, and where the reader stands. -/
structure Lexer where
  tokens : List Token
  mode : Mode
  deriving DecidableEq, Repr

namespace Lexer

/-- The tokens with a word that has ended. -/
def close (tokens : List Token) : Option (List Char) → List Token
  | none => tokens
  | some word => tokens ++ [.word (String.ofList word)]

/-- Operators, patterns, home directories, braces and negation: what is refused. -/
def specials : List Char :=
  ['&', ';', '<', '(', ')', '*', '?', '[', '~', '\x7b', '\x7d', '!']

/-- Whether a word in front of a `>` would be the number of a file. -/
def isNumber : Option (List Char) → Bool
  | none => false
  | some word => !word.isEmpty && word.all Char.isDigit

/-- One character outside of quotes. -/
def plainStep (tokens : List Token) (word : Option (List Char)) (c : Char) :
    Except LexError Lexer :=
  if c = ' ' ∨ c = '\t' then .ok ⟨close tokens word, .plain none⟩
  else if c = '\n' then .ok ⟨close tokens word ++ [.newline], .plain none⟩
  else if c = '|' then .ok ⟨close tokens word, .bar⟩
  else if c = '>' then
    if isNumber word then .error (.special c) else .ok ⟨close tokens word, .greater⟩
  else if c = '#' ∧ word = none then .ok ⟨tokens, .comment⟩
  else if c = '\\' then .ok ⟨tokens, .escaped word⟩
  else if c = '\x27' then .ok ⟨tokens, .single (word.getD [])⟩
  else if c = '"' then .ok ⟨tokens, .double (word.getD [])⟩
  else if c = '$' ∨ c = '\x60' then .error .expansion
  else if c ∈ specials then .error (.special c)
  else .ok ⟨tokens, .plain (some (word.getD [] ++ [c]))⟩

/-- One character. -/
def step (s : Lexer) (c : Char) : Except LexError Lexer :=
  match s.mode with
  | .plain word => plainStep s.tokens word c
  | .escaped word =>
    if c = '\n' then .ok ⟨s.tokens, .plain word⟩
    else .ok ⟨s.tokens, .plain (some (word.getD [] ++ [c]))⟩
  | .single word =>
    if c = '\x27' then .ok ⟨s.tokens, .plain (some word)⟩
    else .ok ⟨s.tokens, .single (word ++ [c])⟩
  | .double word =>
    if c = '"' then .ok ⟨s.tokens, .plain (some word)⟩
    else if c = '\\' then .ok ⟨s.tokens, .doubleEscaped word⟩
    else if c = '$' ∨ c = '\x60' then .error .expansion
    else .ok ⟨s.tokens, .double (word ++ [c])⟩
  | .doubleEscaped word =>
    if c = '\n' then .ok ⟨s.tokens, .double word⟩
    else if c = '\\' ∨ c = '"' ∨ c = '\x60' ∨ c = '$' then .ok ⟨s.tokens, .double (word ++ [c])⟩
    else .ok ⟨s.tokens, .double (word ++ ['\\', c])⟩
  | .bar =>
    if c = '|' then .error (.special c) else plainStep (s.tokens ++ [.pipe]) none c
  | .greater =>
    if c = '>' then .ok ⟨s.tokens ++ [.redirect true], .plain none⟩
    else if c = '|' then .error (.special c)
    else plainStep (s.tokens ++ [.redirect false]) none c
  | .comment =>
    if c = '\n' then .ok ⟨s.tokens ++ [.newline], .plain none⟩ else .ok s

/-- All tokens, at the end of the text. -/
def finish (s : Lexer) : Except LexError (List Token) :=
  match s.mode with
  | .plain word => .ok (close s.tokens word)
  | .bar => .ok (s.tokens ++ [.pipe])
  | .greater => .ok (s.tokens ++ [.redirect false])
  | .comment => .ok s.tokens
  | .escaped _ | .single _ | .double _ | .doubleEscaped _ => .error .unclosed

/-- Before the first character. -/
def start : Lexer := ⟨[], .plain none⟩

end Lexer

/-- The tokens of a script. -/
def lex (text : String) : Except LexError (List Token) := do
  (← text.toList.foldlM Lexer.step Lexer.start).finish

-- Quotes join to one word, a comment needs a word start, and both redirects are known.
example : lex "a\"b c\"'d'\\e #f\n: >> g#h | i" = .ok [.word "ab cde", .newline, .word ":",
    .redirect true, .word "g#h", .pipe, .word "i"] := by rfl

example : lex "echo \"$x\"" = .error .expansion := by rfl

/-! ## Runs over a text -/

namespace Lexer

/-- Between two words. -/
def between (tokens : List Token) : Lexer := ⟨tokens, .plain none⟩

/-- The reader goes from one place to another over a text. -/
def Run (text : List Char) (s t : Lexer) : Prop := text.foldlM step s = .ok t

theorem run_nil (s : Lexer) : Run [] s s := rfl

theorem run_cons {c : Char} {text : List Char} {s t u : Lexer} (hc : s.step c = .ok t)
    (hrest : Run text t u) : Run (c :: text) s u := by
  unfold Run at *
  rw [List.foldlM_cons, hc]
  exact hrest

theorem Run.append {a b : List Char} {s t u : Lexer} (ha : Run a s t) (hb : Run b t u) :
    Run (a ++ b) s u := by
  unfold Run at *
  rw [List.foldlM_append, ha]
  exact hb

/-- The last token is complete where the line or the text ends. -/
structure LineEnds (s : Lexer) (tokens : List Token) : Prop where
  newline : s.step '\n' = .ok (between (tokens ++ [.newline]))
  finish : s.finish = .ok tokens

/-- The last token is also complete where a blank follows. -/
structure Ends (s : Lexer) (tokens : List Token) : Prop extends LineEnds s tokens where
  blank : s.step ' ' = .ok (between tokens)

theorem ends_between (tokens : List Token) : Ends (between tokens) tokens :=
  ⟨⟨rfl, rfl⟩, rfl⟩

theorem ends_word (tokens : List Token) (word : List Char) :
    Ends ⟨tokens, .plain (some word)⟩ (tokens ++ [.word (String.ofList word)]) :=
  ⟨⟨rfl, rfl⟩, rfl⟩

end Lexer

open Lexer

/-! ## What a text says -/

/-- The text goes from between two words to between two words. -/
def Reads (text : List Char) (said : List Token) : Prop :=
  ∀ tokens, Run text (between tokens) (between (tokens ++ said))

/-- A blank, a line end or the end of the text may follow. -/
def Spells (text : List Char) (said : List Token) : Prop :=
  ∀ tokens, ∃ s, Run text (between tokens) s ∧ Ends s (tokens ++ said)

/-- A line end or the end of the text may follow. -/
def Fills (text : List Char) (said : List Token) : Prop :=
  ∀ tokens, ∃ s, Run text (between tokens) s ∧ LineEnds s (tokens ++ said)

variable {a b : List Char} {x y : List Token}

theorem reads_nil : Reads [] [] := by
  intro tokens
  rw [List.append_nil]
  exact run_nil _

theorem spells_nil : Spells [] [] := by
  intro tokens
  rw [List.append_nil]
  exact ⟨_, run_nil _, ends_between tokens⟩

theorem Spells.fills (h : Spells a x) : Fills a x := by
  intro tokens
  obtain ⟨s, hrun, hends⟩ := h tokens
  exact ⟨s, hrun, hends.toLineEnds⟩

theorem Spells.blank (h : Spells a x) : Reads (a ++ [' ']) x := by
  intro tokens
  obtain ⟨s, hrun, hends⟩ := h tokens
  exact hrun.append (run_cons hends.blank (run_nil _))

theorem Fills.newline (h : Fills a x) : Reads (a ++ ['\n']) (x ++ [.newline]) := by
  intro tokens
  obtain ⟨s, hrun, hends⟩ := h tokens
  rw [← List.append_assoc]
  exact hrun.append (run_cons hends.newline (run_nil _))

theorem Reads.append (ha : Reads a x) (hb : Reads b y) : Reads (a ++ b) (x ++ y) := by
  intro tokens
  rw [← List.append_assoc]
  exact (ha tokens).append (hb (tokens ++ x))

theorem Reads.spells (ha : Reads a x) (hb : Spells b y) : Spells (a ++ b) (x ++ y) := by
  intro tokens
  obtain ⟨s, hrun, hends⟩ := hb (tokens ++ x)
  rw [List.append_assoc] at hends
  exact ⟨s, (ha tokens).append hrun, hends⟩

theorem Reads.fills (ha : Reads a x) (hb : Fills b y) : Fills (a ++ b) (x ++ y) := by
  intro tokens
  obtain ⟨s, hrun, hends⟩ := hb (tokens ++ x)
  rw [List.append_assoc] at hends
  exact ⟨s, (ha tokens).append hrun, hends⟩

/-- Two texts with a blank in between. -/
theorem Spells.join (ha : Spells a x) (hb : Spells b y) :
    Spells (a ++ ' ' :: b) (x ++ y) := by
  rw [List.append_cons]
  exact ha.blank.spells hb

theorem lex_of_fills {text : String} (h : Fills text.toList x) : lex text = .ok x := by
  obtain ⟨s, hrun, hends⟩ := h []
  unfold lex
  rw [show text.toList.foldlM step start = .ok s from hrun]
  exact hends.finish

/-! ## Operators and comments -/

theorem spells_pipe : Spells ['|'] [.pipe] := fun _ => ⟨_, rfl, ⟨rfl, rfl⟩, rfl⟩

theorem spells_redirect (append : Bool) :
    Spells (if append then ['>', '>'] else ['>']) [.redirect append] := by
  intro tokens
  cases append with
  | false => exact ⟨_, rfl, ⟨rfl, rfl⟩, rfl⟩
  | true => exact ⟨_, rfl, ⟨rfl, rfl⟩, rfl⟩

theorem run_comment (tokens : List Token) (text : List Char) (h : '\n' ∉ text) :
    Run text ⟨tokens, .comment⟩ ⟨tokens, .comment⟩ := by
  induction text with
  | nil => exact run_nil _
  | cons c text ih =>
    rw [List.mem_cons, not_or] at h
    exact run_cons (if_neg (Ne.symm h.1)) (ih h.2)

/-- A comment on one line says nothing. -/
theorem fills_comment (text : List Char) (h : '\n' ∉ text) : Fills ('#' :: text) [] := by
  intro tokens
  rw [List.append_nil]
  exact ⟨_, run_cons rfl (run_comment tokens text h), rfl, rfl⟩

end Shell

end PipeScript
