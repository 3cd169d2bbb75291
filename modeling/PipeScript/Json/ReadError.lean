-- Why a JSON text cannot be read as a record of the program, and the words for it.
import PipeScript.Json.Value
import PipeScript.Text.Shown

namespace PipeScript

/-- What stands in a text where something else was wanted. -/
inductive Found where
  | null
  | boolean (value : Bool)
  | integer (value : Int)
  | float (value : Binary64)
  | text (value : String)
  | sequence
  | map
  deriving DecidableEq, Repr, Inhabited

/-- Why a text cannot be read. All but `malformed` are about a text that may well be JSON,
but does not hold what is wanted. -/
inductive ReadError where
  /-- The text is not JSON, nests too deeply, or holds a number that is not finite. -/
  | malformed
  | wrongType (found : Found) (expected : String)
  | wrongValue (found : Found) (expected : String)
  | wrongLength (length : Nat) (expected : String)
  | missingField (name : String)
  | duplicateField (name : String)
  | unknownVariant (name : String) (known : List String)
  deriving DecidableEq, Repr, Inhabited

/-- The words for what was found. -/
def Found.describe : Found → String
  | .null => "null"
  | .boolean value => "boolean `" ++ (if value then "true" else "false") ++ "`"
  | .integer value => "integer `" ++ String.ofList (intText value) ++ "`"
  | .float value => "floating point `" ++ value.text ++ "`"
  | .text value => "string " ++ Text.shown value
  | .sequence => "sequence"
  | .map => "map"

/-- What stands in a value where something else was wanted. -/
def Json.found : Json → Found
  | .null => .null
  | .bool value => .boolean value
  | .number (.int value) => .integer value
  | .number (.float value) => .float value
  | .string value => .text value
  | .array _ => .sequence
  | .object _ => .map

namespace ReadError

/-- A count of elements. -/
def elements (count : Nat) : String :=
  String.ofList (Nat.toDigits 10 count) ++ (if count = 1 then " element" else " elements")

/-- The names that would have been known. -/
def choices (known : List String) : String :=
  match known.map fun name => "`" ++ name ++ "`" with
  | [] => "there are no variants"
  | [a] => a
  | [a, b] => a ++ " or " ++ b
  | names => "one of " ++ ", ".intercalate names

/-- The message of an error. -/
def message : ReadError → String
  | .malformed => "malformed JSON"
  | .wrongType found expected => "invalid type: " ++ found.describe ++ ", expected " ++ expected
  | .wrongValue found expected =>
    "invalid value: " ++ found.describe ++ ", expected " ++ expected
  | .wrongLength length expected =>
    "invalid length " ++ String.ofList (Nat.toDigits 10 length) ++ ", expected " ++ expected
  | .missingField name => "missing field `" ++ name ++ "`"
  | .duplicateField name => "duplicate field `" ++ name ++ "`"
  | .unknownVariant name known =>
    "unknown variant `" ++ name ++ "`, expected " ++ choices known

end ReadError

end PipeScript
