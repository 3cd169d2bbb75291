-- The tokens of JSON text. Characters are read one at a time; the first one that fits
-- nowhere leaves a `fault` and ends the list.
import PipeScript.Json.Numeral

namespace PipeScript

/-- A part of a string: a character, or half of a pair of escapes that may or may not make a
character together with its neighbour. -/
inductive Piece where
  | char (c : Char)
  | half (code : Nat)
  deriving DecidableEq, Repr, Inhabited

namespace Piece

/-- The piece that a four-digit escape stands for. -/
def ofCode (code : Nat) : Piece :=
  if 0xD800 ≤ code ∧ code ≤ 0xDFFF then .half code else .char (Char.ofNat code)

/-- The characters of a string, if every half stands in a pair of a leading and a trailing
one. -/
def characters? : List Piece → Option (List Char)
  | [] => some []
  | .char c :: rest => (characters? rest).map (c :: ·)
  | .half lead :: .half trail :: rest =>
    if lead < 0xDC00 ∧ 0xDC00 ≤ trail then
      (characters? rest).map
        (Char.ofNat (0x10000 + (lead - 0xD800) * 0x400 + (trail - 0xDC00)) :: ·)
    else none
  | .half _ :: _ => none

/-- The string itself. -/
def text? (pieces : List Piece) : Option String := (characters? pieces).map String.ofList

end Piece

/-- A value that is one token. -/
inductive Scalar where
  | null
  | bool (value : Bool)
  | number (numeral : Numeral)
  | text (pieces : List Piece)
  deriving DecidableEq, Repr, Inhabited

inductive Token where
  | beginArray
  | endArray
  | beginObject
  | endObject
  | comma
  | colon
  | scalar (value : Scalar)
  | fault
  deriving DecidableEq, Repr, Inhabited

namespace Token

/-! ## Reading characters -/

/-- Where in a token the reader is. -/
inductive Place where
  /-- Between tokens. -/
  | between
  /-- Inside a word, with the letters that still have to come. -/
  | word (letters : List Char) (value : Scalar)
  /-- Inside a string; the pieces so far, the last one first. -/
  | string (pieces : List Piece)
  /-- Behind a backslash. -/
  | escape (pieces : List Piece)
  /-- Inside a four-digit escape: the digits still wanted, and the code so far. -/
  | code (pieces : List Piece) (wanted : Nat) (value : Nat)
  | number (part : Numeral.Part) (numeral : Numeral)
  /-- Behind a fault. -/
  | broken
  deriving DecidableEq, Repr, Inhabited

/-- The value of a hexadecimal digit, in either case. -/
def hexValue? (c : Char) : Option Nat :=
  if '0' ≤ c ∧ c ≤ '9' then some (c.toNat - '0'.toNat)
  else if 'a' ≤ c ∧ c ≤ 'f' then some (c.toNat - 'a'.toNat + 10)
  else if 'A' ≤ c ∧ c ≤ 'F' then some (c.toNat - 'A'.toNat + 10)
  else none

/-- The character that a one-letter escape stands for. -/
def escaped? (c : Char) : Option Char :=
  if c = '"' ∨ c = '\\' ∨ c = '/' then some c
  else if c = 'b' then some '\x08'
  else if c = 'f' then some '\x0c'
  else if c = 'n' then some '\n'
  else if c = 'r' then some '\r'
  else if c = 't' then some '\t'
  else none

/-- Blanks between tokens. -/
def isSpace (c : Char) : Bool := c = ' ' || c = '\n' || c = '\r' || c = '\t'

/-- What a character between tokens begins or is. -/
def begin (c : Char) : List Token × Place :=
  if isSpace c then ([], .between)
  else if c = '[' then ([.beginArray], .between)
  else if c = ']' then ([.endArray], .between)
  else if c = '\x7b' then ([.beginObject], .between)
  else if c = '\x7d' then ([.endObject], .between)
  else if c = ',' then ([.comma], .between)
  else if c = ':' then ([.colon], .between)
  else if c = '"' then ([], .string [])
  else if c = 'n' then ([], .word ['u', 'l', 'l'] .null)
  else if c = 't' then ([], .word ['r', 'u', 'e'] (.bool true))
  else if c = 'f' then ([], .word ['a', 'l', 's', 'e'] (.bool false))
  else if c = '-' then ([], .number .sign (.empty true))
  else
    match Numeral.next .sign (.empty false) c with
    | .more part numeral => ([], .number part numeral)
    | _ => ([.fault], .broken)

/-- The tokens that one more character completes, and where it leaves the reader. -/
def step : Place → Char → List Token × Place
  | .between, c => begin c
  | .word [] _, _ => ([.fault], .broken)
  | .word [last] value, c => if c = last then ([.scalar value], .between) else ([.fault], .broken)
  | .word (letter :: letters) value, c =>
    if c = letter then ([], .word letters value) else ([.fault], .broken)
  | .string pieces, c =>
    if c = '"' then ([.scalar (.text pieces.reverse)], .between)
    else if c = '\\' then ([], .escape pieces)
    else if c.toNat < 32 then ([.fault], .broken)
    else ([], .string (.char c :: pieces))
  | .escape pieces, c =>
    if c = 'u' then ([], .code pieces 4 0)
    else
      match escaped? c with
      | some e => ([], .string (.char e :: pieces))
      | none => ([.fault], .broken)
  | .code pieces wanted value, c =>
    match hexValue? c with
    | none => ([.fault], .broken)
    | some d =>
      if wanted ≤ 1 then ([], .string (Piece.ofCode (16 * value + d) :: pieces))
      else ([], .code pieces (wanted - 1) (16 * value + d))
  | .number part numeral, c =>
    match numeral.next part c with
    | .more part numeral => ([], .number part numeral)
    | .fault => ([.fault], .broken)
    | .done =>
      let (tokens, place) := begin c
      (.scalar (.number numeral) :: tokens, place)
  | .broken, _ => ([], .broken)

/-- What the end of the text completes. -/
def finish : Place → List Token
  | .between | .broken => []
  | .number part numeral => if part.final then [.scalar (.number numeral)] else [.fault]
  | _ => [.fault]

/-- The tokens of a text, from a place on. -/
def scan (place : Place) : List Char → List Token
  | [] => finish place
  | c :: rest =>
    let (tokens, place) := step place c
    tokens ++ scan place rest

/-- The tokens of a text. -/
def ofText (text : String) : List Token := scan .between text.toList

end Token

end PipeScript
