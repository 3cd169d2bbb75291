-- JSON text: on one line without blanks, or spread over lines with an indent of two.
import PipeScript.Json.Value

namespace PipeScript

namespace Json

/-! ## Strings -/

/-- The lower-case hexadecimal digit of a number below sixteen. -/
def hexDigit (n : Nat) : Char :=
  if n < 10 then Char.ofNat ('0'.toNat + n) else Char.ofNat ('a'.toNat + (n - 10))

/-- How one character stands inside a string. Quotes, backslashes and control characters
are escaped, everything else stands for itself. -/
def escapeChar (c : Char) : List Char :=
  if c = '"' then ['\\', '"']
  else if c = '\\' then ['\\', '\\']
  else if c = '\x08' then ['\\', 'b']
  else if c = '\t' then ['\\', 't']
  else if c = '\n' then ['\\', 'n']
  else if c = '\x0c' then ['\\', 'f']
  else if c = '\r' then ['\\', 'r']
  else if c.toNat < 32 then
    ['\\', 'u', '0', '0', hexDigit (c.toNat / 16), hexDigit (c.toNat % 16)]
  else [c]

/-- A string between quotes. -/
def quoted (s : String) : String :=
  String.ofList ('"' :: (s.toList.flatMap escapeChar ++ ['"']))

/-! ## On one line -/

mutual

/-- The text of a value on one line. -/
def compact : Json → String
  | .null => "null"
  | .bool true => "true"
  | .bool false => "false"
  | .number value => value.text
  | .string value => quoted value
  | .array items => "[" ++ compactItems items ++ "]"
  | .object members => "\x7b" ++ compactMembers members ++ "\x7d"

def compactItems : List Json → String
  | [] => ""
  | item :: rest => item.compact ++ compactRest rest

/-- The items after the first one, each behind a comma. -/
def compactRest : List Json → String
  | [] => ""
  | item :: rest => "," ++ item.compact ++ compactRest rest

def compactMembers : List (String × Json) → String
  | [] => ""
  | (key, value) :: rest => quoted key ++ ":" ++ value.compact ++ compactMoreMembers rest

/-- The members after the first one, each behind a comma. -/
def compactMoreMembers : List (String × Json) → String
  | [] => ""
  | (key, value) :: rest =>
    "," ++ quoted key ++ ":" ++ value.compact ++ compactMoreMembers rest

end

/-! ## Over several lines -/

/-- A line break and the indent of a nesting depth. -/
def lineBreak (depth : Nat) : String :=
  String.ofList ('\n' :: List.replicate (2 * depth) ' ')

mutual

/-- The text of a value that stands at a nesting depth: one item or member a line, and
nothing between the brackets of an empty array or object. -/
def pretty (depth : Nat) : Json → String
  | .array [] => "[]"
  | .array (item :: rest) =>
    "[" ++ lineBreak (depth + 1) ++ item.pretty (depth + 1) ++ prettyRest (depth + 1) rest
      ++ lineBreak depth ++ "]"
  | .object [] => "\x7b\x7d"
  | .object ((key, value) :: rest) =>
    "\x7b" ++ lineBreak (depth + 1) ++ quoted key ++ ": " ++ value.pretty (depth + 1)
      ++ prettyMoreMembers (depth + 1) rest ++ lineBreak depth ++ "\x7d"
  | .null => "null"
  | .bool true => "true"
  | .bool false => "false"
  | .number value => value.text
  | .string value => quoted value

/-- The items after the first one, each on a line of its own. -/
def prettyRest (depth : Nat) : List Json → String
  | [] => ""
  | item :: rest => "," ++ lineBreak depth ++ item.pretty depth ++ prettyRest depth rest

/-- The members after the first one, each on a line of its own. -/
def prettyMoreMembers (depth : Nat) : List (String × Json) → String
  | [] => ""
  | (key, value) :: rest =>
    "," ++ lineBreak depth ++ quoted key ++ ": " ++ value.pretty depth
      ++ prettyMoreMembers depth rest

end

end Json

end PipeScript
