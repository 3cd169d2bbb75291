-- The strings of a JSON text. A string is read from any text that the grammar of strings allows,
-- whatever comes behind it; and what is written for a string is such a text.
import PipeScript.Json.Printer
import PipeScript.Json.Token

namespace PipeScript

namespace Piece

/-! ## The grammar of strings -/

/-- The letters of the short escapes, with the characters they stand for. -/
def shortEscapes : List (Char × Char) :=
  [('"', '"'), ('\\', '\\'), ('/', '/'), ('b', '\x08'), ('f', '\x0c'), ('n', '\n'), ('r', '\r'),
    ('t', '\t')]

/-- A hexadecimal digit, in either case. -/
def HexDigit (value : Nat) (c : Char) : Prop :=
  value < 16 ∧ (c = Nat.digitChar value ∨ c = (Nat.digitChar value).toUpper)

instance (value : Nat) (c : Char) : Decidable (HexDigit value c) :=
  inferInstanceAs (Decidable (_ ∧ _))

/-- A piece of a string in a text: a character that may stand for itself, a short escape, or a
code of four hexadecimal digits. -/
inductive Text : Piece → List Char → Prop where
  | plain {c : Char} : 32 ≤ c.toNat → c ≠ '"' → c ≠ '\\' → Text (.char c) [c]
  | short {letter c : Char} : (letter, c) ∈ shortEscapes → Text (.char c) ['\\', letter]
  | code {w x y z : Nat} {a b c d : Char} : HexDigit w a → HexDigit x b → HexDigit y c →
    HexDigit z d → Text (ofCode (4096 * w + 256 * x + 16 * y + z)) ['\\', 'u', a, b, c, d]

/-- The inside of a string in a text. -/
inductive Texts : List Piece → List Char → Prop where
  | nil : Texts [] []
  | cons {piece : Piece} {pieces : List Piece} {cs rest : List Char} : Text piece cs →
    Texts pieces rest → Texts (piece :: pieces) (cs ++ rest)

/-- A string in a text, with its quotes. -/
inductive QuotedText : List Piece → List Char → Prop where
  | mk {pieces : List Piece} {cs : List Char} : Texts pieces cs →
    QuotedText pieces ('"' :: (cs ++ ['"']))

end Piece

/-! ## Scanning a string -/

namespace Token

theorem scan_cons {place next : Place} {c : Char} {tokens : List Token}
    (h : step place c = (tokens, next)) (rest : List Char) :
    scan place (c :: rest) = tokens ++ scan next rest := by
  simp [scan, h]

theorem scan_silent {place : Place} {c : Char} (next : Place) (h : step place c = ([], next))
    (rest : List Char) : scan place (c :: rest) = scan next rest :=
  scan_cons h rest

theorem hexValue?_of_hexDigit {value : Nat} {c : Char} (h : Piece.HexDigit value c) :
    hexValue? c = some value := by
  have hall : ∀ n < 16, hexValue? (Nat.digitChar n) = some n ∧
      hexValue? (Nat.digitChar n).toUpper = some n := by decide
  obtain ⟨hvalue, rfl | rfl⟩ := h
  · exact (hall value hvalue).1
  · exact (hall value hvalue).2

theorem escaped?_of_shortEscapes :
    ∀ e ∈ Piece.shortEscapes, e.1 ≠ 'u' ∧ escaped? e.1 = some e.2 := by decide

/-- One more digit of a code. -/
theorem step_code (pieces : List Piece) (wanted : Nat) {value digit : Nat} {c : Char}
    (h : Piece.HexDigit digit c) :
    step (.code pieces (wanted + 2) value) c =
      ([], .code pieces (wanted + 1) (16 * value + digit)) := by
  simp [step, hexValue?_of_hexDigit h]

/-- Every piece is read from its text. -/
theorem scan_piece {piece : Piece} {cs : List Char} (h : piece.Text cs) (pieces : List Piece)
    (rest : List Char) :
    scan (.string pieces) (cs ++ rest) = scan (.string (piece :: pieces)) rest := by
  cases h with
  | plain hcontrol hquote hback =>
    exact scan_silent _ (by simp [step, hquote, hback, Nat.not_lt.mpr hcontrol]) rest
  | short hmem =>
    obtain ⟨hu, hletter⟩ := escaped?_of_shortEscapes _ hmem
    rw [List.cons_append, scan_silent (.escape pieces) rfl]
    exact scan_silent _ (by simp [step, hu, hletter]) rest
  | @code w x y z a b c d hw hx hy hz =>
    have hcode : 16 * (16 * (16 * (16 * 0 + w) + x) + y) + z =
        4096 * w + 256 * x + 16 * y + z := by omega
    simp only [List.cons_append, List.nil_append]
    rw [scan_silent (.escape pieces) rfl, scan_silent (.code pieces 4 0) rfl,
      scan_silent _ (step_code pieces 2 hw), scan_silent _ (step_code pieces 1 hx),
      scan_silent _ (step_code pieces 0 hy), ← hcode]
    exact scan_silent _ (by simp [step, hexValue?_of_hexDigit hz]) rest

theorem scan_pieces {pieces : List Piece} {cs : List Char} (h : Piece.Texts pieces cs)
    (before : List Piece) (rest : List Char) :
    scan (.string before) (cs ++ '"' :: rest) =
      .scalar (.text (before.reverse ++ pieces)) :: scan .between rest := by
  induction h generalizing before with
  | nil =>
    rw [List.append_nil]
    exact scan_cons rfl rest
  | cons hpiece _ ih =>
    rw [List.append_assoc, scan_piece hpiece, ih]
    simp

/-- A string is read from its text. -/
theorem scan_quotedText {pieces : List Piece} {cs : List Char} (h : Piece.QuotedText pieces cs)
    (rest : List Char) :
    scan .between (cs ++ rest) = .scalar (.text pieces) :: scan .between rest := by
  cases h with
  | mk hpieces =>
    rw [List.cons_append, scan_silent (.string []) rfl, List.append_assoc, List.singleton_append,
      scan_pieces hpieces]
    rfl

end Token

/-! ## Strings as they are written -/

namespace Piece

/-- The pieces of a string without any halves. -/
def ofText (s : String) : List Piece := s.toList.map .char

@[simp] theorem text?_ofText (s : String) : text? (ofText s) = some s := by
  have hchars : ∀ cs : List Char, characters? (cs.map .char) = some cs := by
    intro cs
    induction cs with
    | nil => rfl
    | cons c rest ih => simp [characters?, ih]
  simp [text?, ofText, hchars]

theorem hexDigit_hexDigit : ∀ n < 16, HexDigit n (Json.hexDigit n) := by decide

/-- A control character is written by its code. -/
theorem text_code {c : Char} (h : c.toNat < 32) :
    Text (.char c) ['\\', 'u', '0', '0', Json.hexDigit (c.toNat / 16),
      Json.hexDigit (c.toNat % 16)] := by
  have hzero : HexDigit 0 '0' := ⟨by decide, .inl rfl⟩
  have htext := Text.code hzero hzero (hexDigit_hexDigit (c.toNat / 16) (by omega))
    (hexDigit_hexDigit (c.toNat % 16) (by omega))
  have hcode : 4096 * 0 + 256 * 0 + 16 * (c.toNat / 16) + c.toNat % 16 = c.toNat := by omega
  rwa [hcode, ofCode, if_neg (by omega), Char.ofNat_toNat] at htext

theorem text_escapeChar (c : Char) : Text (.char c) (Json.escapeChar c) := by
  unfold Json.escapeChar
  -- the escapes of one letter, in the order of the definition
  iterate 7
    split
    · rename_i h
      subst h
      exact .short (by decide)
  split
  · rename_i h
    exact text_code h
  · rename_i hquote hback _ _ _ _ _ hcontrol
    exact .plain (by omega) hquote hback

theorem texts_escaped (cs : List Char) : Texts (cs.map .char) (cs.flatMap Json.escapeChar) := by
  induction cs with
  | nil => exact .nil
  | cons c rest ih => exact .cons (text_escapeChar c) ih

/-- A string is written as a string. -/
theorem quotedText_quoted (s : String) : QuotedText (ofText s) (Json.quoted s).toList := by
  rw [Json.quoted, String.toList_ofList]
  exact .mk (texts_escaped s.toList)

end Piece

end PipeScript
