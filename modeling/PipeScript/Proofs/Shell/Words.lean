-- Reading undoes quoting. A text in any quoting, with a blank, a line end or nothing behind it,
-- is one word: the reader stops right behind it with the text in its hands, and what follows is
-- read as if it stood alone.
import PipeScript.Proofs.Shell.Quoting

namespace PipeScript

namespace Shell

open Lexer

/-! ## The first word of a text -/

/-- What ends a word outside of quotes: blanks, line ends and operators. -/
def wordEnds : List Char := [' ', '\t', '\n', '|', '&', ';', '<', '>', '(', ')']

/-- Whether the word that the reader is in ends before a character. A comment starts only
where there is no word. -/
def Mode.stops : Mode → Char → Bool
  | .plain word, c => wordEnds.contains c || (c = '#' && word.isNone)
  | _, _ => false

/-- Reads to the end of a word: the word, unless there is none, and what is left. -/
def Lexer.readWord (s : Lexer) : List Char → Except LexError (Option (List Char) × List Char)
  | [] =>
    match s.mode with
    | .plain word => .ok (word, [])
    | _ => .error .unclosed
  | c :: rest =>
    match s.mode with
    | .plain word =>
      if s.mode.stops c then .ok (word, c :: rest) else do (← s.step c).readWord rest
    | _ => do (← s.step c).readWord rest

/-- The word that a text starts with, and what is left behind it. -/
def firstWord (text : String) : Except LexError (Option String × String) := do
  let (word, rest) ← start.readWord text.toList
  return (word.map String.ofList, String.ofList rest)

-- An operator ends a word, a hash in it does not.
example : firstWord "a'b c'#d|e" = .ok (some "ab c#d", "|e") := by rfl

/-- A blank, a line end or nothing comes first. -/
def EndsWord (rest : List Char) : Prop := ∀ c ∈ rest.head?, c = ' ' ∨ c = '\t' ∨ c = '\n'

theorem not_stops_of_not_heeds {mode : Mode} {c : Char} (h : mode.heeds c = false) :
    mode.stops c = false := by
  have hall : ('#' :: wordEnds).all (Mode.plain none).heeds = true := by decide
  cases mode with
  | plain word =>
    cases hstops : (Mode.plain word).stops c with
    | false => rfl
    | true =>
      have hc : c ∈ '#' :: wordEnds := by
        simp only [Mode.stops, Bool.or_eq_true, Bool.and_eq_true, decide_eq_true_eq,
          List.contains_iff_mem] at hstops
        rcases hstops with hends | ⟨rfl, _⟩
        · exact List.mem_cons_of_mem _ hends
        · exact List.mem_cons_self
      have hheeds : (Mode.plain word).heeds c = true := List.all_eq_true.mp hall c hc
      rw [h] at hheeds
      cases hheeds
  | _ => rfl

theorem readWord_of_not_stops {s : Lexer} {c : Char} (h : s.mode.stops c = false)
    (rest : List Char) : s.readWord (c :: rest) = s.step c >>= (·.readWord rest) := by
  rw [Lexer.readWord]
  split
  · rw [h]
    rfl
  · rfl

/-- The reader stops where the word does. -/
theorem readWord_of_passes {text rest word : List Char} {tokens : List Token} {s : Lexer}
    (h : Passes text s ⟨tokens, .plain (some word)⟩) (hrest : EndsWord rest) :
    s.readWord (text ++ rest) = .ok (some word, rest) := by
  generalize ht : (⟨tokens, .plain (some word)⟩ : Lexer) = t at h
  induction h with
  | nil s =>
    subst ht
    cases rest with
    | nil => rfl
    | cons c rest => rcases hrest c rfl with rfl | rfl | rfl <;> rfl
  | cons hquiet hc _ ih =>
    rw [List.cons_append, readWord_of_not_stops (not_stops_of_not_heeds hquiet), hc]
    exact ih ht

/-! ## What follows a word -/

/-- The reader with more tokens in front. -/
def Lexer.behind (said : List Token) (s : Lexer) : Lexer := ⟨said ++ s.tokens, s.mode⟩

theorem close_append (said tokens : List Token) (word : Option (List Char)) :
    close (said ++ tokens) word = said ++ close tokens word := by
  cases word with
  | none => rfl
  | some word => exact List.append_assoc _ _ _

theorem plainStep_behind (said tokens : List Token) (word : Option (List Char)) (c : Char) :
    plainStep (said ++ tokens) word c = (plainStep tokens word c).map (behind said) := by
  simp only [plainStep, apply_ite (Except.map (behind said))]
  simp only [Except.map, behind, close_append, List.append_assoc]

/-- The reader does not look back at the tokens it has. -/
theorem step_behind (said : List Token) (s : Lexer) (c : Char) :
    (s.behind said).step c = (s.step c).map (behind said) := by
  obtain ⟨tokens, mode⟩ := s
  cases mode with
  | plain word => exact plainStep_behind said tokens word c
  | _ =>
    simp only [behind, step, List.append_assoc, plainStep_behind, apply_ite (Except.map _)]
    rfl

theorem finish_behind (said : List Token) (s : Lexer) :
    (s.behind said).finish = s.finish.map (said ++ ·) := by
  obtain ⟨tokens, mode⟩ := s
  cases mode <;> simp [behind, finish, close_append, Except.map]

theorem run_behind (said : List Token) (text : List Char) (s : Lexer) :
    text.foldlM step (s.behind said) = (text.foldlM step s).map (behind said) := by
  induction text generalizing s with
  | nil => rfl
  | cons c text ih =>
    rw [List.foldlM_cons, List.foldlM_cons, step_behind]
    cases s.step c with
    | error e => rfl
    | ok t => exact ih t

theorem step_wordEnd (tokens : List Token) (word : List Char) {c : Char}
    (h : c = ' ' ∨ c = '\t' ∨ c = '\n') :
    step ⟨tokens, .plain (some word)⟩ c
      = step (between (tokens ++ [.word (String.ofList word)])) c := by
  rcases h with rfl | rfl | rfl <;> rfl

/-- Behind a word a script is read as if it started there. -/
theorem lex_append {text rest : String} {word : List Char}
    (h : Passes text.toList start ⟨[], .plain (some word)⟩) (hrest : EndsWord rest.toList) :
    lex (text ++ rest) = (lex rest).map (.word (String.ofList word) :: ·) := by
  unfold lex
  rw [String.toList_append, List.foldlM_append,
    show text.toList.foldlM step start = .ok _ from h.run]
  have hbetween : rest.toList.foldlM step ⟨[], .plain (some word)⟩ >>= finish
      = rest.toList.foldlM step (start.behind [.word (String.ofList word)]) >>= finish := by
    cases hr : rest.toList with
    | nil => rfl
    | cons c more =>
      rw [hr] at hrest
      rw [List.foldlM_cons, List.foldlM_cons, step_wordEnd [] word (hrest c rfl)]
      rfl
  rw [run_behind] at hbetween
  refine hbetween.trans ?_
  cases rest.toList.foldlM step start with
  | error e => rfl
  | ok t => exact finish_behind _ t

/-! ## The law -/

/-- A text in any quoting, with a blank, a line end or nothing behind it, is read as one word.
The word is the text, it takes all characters of the quoting and none behind them, nothing on
the way is an expansion, an operator, a blank, a pattern or a comment, and what follows is read
as if the word were not there. -/
theorem reading_undoes_quoting (s : String) (quoting : Quoting) (rest : String)
    (h : EndsWord rest.toList) :
    firstWord (quote s quoting ++ rest) = .ok (some s, rest) ∧
    Passes (quote s quoting).toList start ⟨[], .plain (some s.toList)⟩ ∧
    lex (quote s quoting ++ rest) = (lex rest).map (.word s :: ·) := by
  have hpasses : Passes (quote s quoting).toList start ⟨[], .plain (some s.toList)⟩ :=
    passes_quote s quoting []
  refine ⟨?_, hpasses, ?_⟩
  · unfold firstWord
    rw [String.toList_append, readWord_of_passes hpasses h]
    simp [bind, Except.bind, pure, Except.pure]
  · have hlex := lex_append hpasses h
    rwa [String.ofList_toList] at hlex

/-- Quotes, a backslash before a line end, and a backslash last. -/
theorem a_text_full_of_quotes_is_read_back :
    EndsWord " | x".toList ∧
    firstWord (quote "''a\\\nb\"$c\\" .single ++ " | x") = .ok (some "''a\\\nb\"$c\\", " | x") ∧
    lex (quote "''a\\\nb\"$c\\" .raw ++ " | x")
      = .ok [.word "''a\\\nb\"$c\\", .pipe, .word "x"] := by
  have hends : EndsWord " | x".toList := by
    rintro c hc
    exact Or.inl (Option.some.inj hc).symm
  refine ⟨hends, (reading_undoes_quoting _ .single _ hends).1, ?_⟩
  rw [(reading_undoes_quoting _ .raw _ hends).2.2]
  rfl

end Shell

end PipeScript
