-- Shell words: how a text is written so that the shell reads it back as one word and
-- expands nothing in it, and how it is put into a comment.

namespace PipeScript

namespace Shell

/-- How a value is quoted on a command line. -/
inductive Quoting where
  | double
  | single
  /-- As it is, if it is a plain word. -/
  | raw
  deriving DecidableEq, Repr, Inhabited

/-- The characters that keep a meaning between double quotes. -/
def isActive (c : Char) : Bool := c = '\\' || c = '"' || c = '\x60' || c = '$'

/-- One character between double quotes. -/
def escapeDouble (c : Char) : List Char := if isActive c then ['\\', c] else [c]

/-- A text between double quotes, everything that keeps a meaning there behind a
backslash. -/
def doubleQuote (s : String) : String :=
  String.ofList ('"' :: (s.toList.flatMap escapeDouble ++ ['"']))

/-- One character between single quotes. A single quote has to leave them. -/
def escapeSingle (c : Char) : List Char :=
  if c = '\x27' then ['\x27', '\\', '\x27', '\x27'] else [c]

/-- A text between single quotes. -/
def singleQuote (s : String) : String :=
  String.ofList ('\x27' :: (s.toList.flatMap escapeSingle ++ ['\x27']))

/-- The characters of plain words: ASCII letters, digits and some punctuation that means
nothing to the shell. -/
def isPlain (c : Char) : Bool :=
  c.isAlphanum || c = '-' || c = '_' || c = '.' || c = '/' || c = ':' || c = '+' || c = ','
    || c = '=' || c = '%' || c = '@'

/-- Whether a text is a word to the shell without any quotes. -/
def isPlainWord (s : String) : Bool := !s.toList.isEmpty && s.toList.all isPlain

/-- A text in the given quoting. One that may stand as it is, and is no plain word, is
double-quoted. -/
def quote (s : String) : Quoting → String
  | .double => doubleQuote s
  | .single => singleQuote s
  | .raw => if isPlainWord s then s else doubleQuote s

/-- One character of a comment. -/
def flattenChar (c : Char) : Char := if c = '\r' ∨ c = '\n' then ' ' else c

/-- A text on one line, so that it cannot leave a comment. -/
def flatten (s : String) : String := String.ofList (s.toList.map flattenChar)

end Shell

end PipeScript
