-- Records that say themselves what they are: one field is a tag, and it decides which other
-- fields there are. The tag may stand anywhere among the fields, so these are kept until it
-- is known.
import PipeScript.Json.Reader

namespace PipeScript

variable {α β σ τ : Type}

/-- The fields of a record that were kept: by name, or by place. -/
inductive Kept where
  | byName (members : List (String × Json))
  | byPlace (items : List Json)
  deriving Repr, Inhabited

/-! ## Small records -/

namespace Shape

/-- A record with one field. Other fields are passed over by `ignore`. -/
def one (name : String) (ignore : τ → Except ReadError Unit) (field : String)
    (read : τ → Except ReadError α) : Shape τ (Option α) α where
  name := name
  fields := [field]
  draft := none
  read := fun draft key value =>
    if key = field then once field draft (read value)
    else do
      ignore value
      return draft
  finish := fun absent draft => required absent 0 field draft

/-- A record with two fields. Other fields are passed over by `ignore`. -/
def two (name : String) (ignore : τ → Except ReadError Unit)
    (first : String) (readFirst : τ → Except ReadError α)
    (second : String) (readSecond : τ → Except ReadError β) :
    Shape τ (Option α × Option β) (α × β) where
  name := name
  fields := [first, second]
  draft := (none, none)
  read := fun draft key value =>
    if key = first then return (← once first draft.1 (readFirst value), draft.2)
    else if key = second then return (draft.1, ← once second draft.2 (readSecond value))
    else do
      ignore value
      return draft
  finish := fun absent draft => do
    let a ← required absent 0 first draft.1
    return (a, ← required absent 1 second draft.2)

/-- Reads a record from fields that were kept. -/
def ofKept (shape : Shape Json σ α) : Kept → Except ReadError α
  | .byName members => do
    let draft ← shape.readMembers .ok members
    shape.finish missing draft
  | .byPlace items => do
    let (draft, rest) ← shape.readItems shape.draft shape.fields items
    let record ← shape.finish shape.tooShort draft
    if rest.isEmpty then .ok record
    else
      .error (.wrongLength (shape.fields.length + rest.length)
        (ReadError.elements shape.fields.length ++ " in sequence"))

end Shape

namespace Kept

/-! ## Fields that were kept -/

/-- Passes over a field that nobody wants. -/
def ignore (_ : Json) : Except ReadError Unit := .ok ()

def text : Json → Except ReadError String
  | .string value => .ok value
  | value => .error (.wrongType value.found "a string")

def bool : Json → Except ReadError Bool
  | .bool value => .ok value
  | value => .error (.wrongType value.found "a boolean")

def object : Json → Except ReadError (List (String × Json))
  | .object members => .ok members
  | value => .error (.wrongType value.found "a map")

/-! ## The tag -/

/-- The tag among the members of an object, and the other members. -/
def splitMembers (tag : String) (readTag : Document → Except ReadError β) (room : Nat) :
    List (List Piece × Document) → Option β → Except ReadError (Option β × List (String × Json))
  | [], found => .ok (found, [])
  | (key, value) :: rest, found => do
    let key ← Reader.spell key
    if key = tag then
      let found ← Shape.once tag found (readTag value)
      splitMembers tag readTag room rest found
    else
      let value ← Reader.json room value
      let (found, others) ← splitMembers tag readTag room rest found
      return (found, (key, value) :: others)

/-- A record's tag and its other fields, in a document. -/
def reader (tag expected : String) (readTag : Document → Except ReadError β) :
    Reader (β × Kept)
  | room, .object members closed => do
    let room ← Reader.enter room
    let (found, others) ← splitMembers tag readTag room members none
    Reader.provided closed
      (match found with
        | some found => .ok (found, .byName others)
        | none => .error (.missingField tag))
  | room, .array items closed => do
    let room ← Reader.enter room
    match items with
    | [] => Reader.provided closed (.error (.missingField tag))
    | first :: rest =>
      let found ← readTag first
      let others ← Reader.jsonItems room rest
      Reader.provided closed (.ok (found, .byPlace others))
  | _, document => Reader.mismatch expected document

/-- The tag among members that were kept, and the other members. -/
def splitKeptMembers (tag : String) (readTag : Json → Except ReadError β) :
    List (String × Json) → Option β → Except ReadError (Option β × List (String × Json))
  | [], found => .ok (found, [])
  | (key, value) :: rest, found => do
    if key = tag then
      let found ← Shape.once tag found (readTag value)
      splitKeptMembers tag readTag rest found
    else
      let (found, others) ← splitKeptMembers tag readTag rest found
      return (found, (key, value) :: others)

/-- A record's tag and its other fields, among fields that were kept. -/
def split (tag : String) (readTag : Json → Except ReadError β) :
    Kept → Except ReadError (β × Kept)
  | .byName members => do
    match ← splitKeptMembers tag readTag members none with
    | (some found, others) => .ok (found, .byName others)
    | (none, _) => .error (.missingField tag)
  | .byPlace [] => .error (.missingField tag)
  | .byPlace (first :: rest) => do return (← readTag first, .byPlace rest)

/-! ## Names of variants -/

/-- The variant with a name. -/
def variant (all : List β) (name : β → String) (text : String) : Except ReadError β :=
  match all.find? (name · = text) with
  | some found => .ok found
  | none => .error (.unknownVariant text (all.map name))

/-- A tag in a document: the name of a variant. -/
def documentTag (all : List β) (name : β → String) : Document → Except ReadError β
  | .scalar (.text pieces) => do variant all name (← Reader.spell pieces)
  | document => Reader.mismatch "variant identifier" document

/-- A tag that was kept: the name of a variant, or its place among all variants. -/
def keptTag (all : List β) (name : β → String) : Json → Except ReadError β
  | .string text => variant all name text
  | .number (.int (.ofNat place)) =>
    match all[place]? with
    | some found => .ok found
    | none =>
      .error (.wrongValue (.integer place)
        ("variant index 0 <= i < " ++ String.ofList (Nat.toDigits 10 all.length)))
  | value => .error (.wrongType value.found "variant identifier")

end Kept

end PipeScript
