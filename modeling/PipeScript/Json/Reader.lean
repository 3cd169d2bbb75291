-- Reading documents: values of the basic kinds, lists, and records with named fields.
-- A reader walks a document in the order of its text, so the first problem it meets is the
-- first one in the text.
import PipeScript.Json.Document
import PipeScript.Json.ReadError

namespace PipeScript

variable {α σ τ κ : Type}

/-- Reads a document. The number says how many more arrays and objects may be opened inside
one another. -/
abbrev Reader (α : Type) := Nat → Document → Except ReadError α

namespace Reader

/-- How deep the arrays and objects of a text may nest. -/
def depthLimit : Nat := 127

/-- Opens an array or object, if one more is allowed. -/
def enter : Nat → Except ReadError Nat
  | 0 => .error .malformed
  | room + 1 => .ok room

/-- Goes on only if the text did what it has to, such as closing an array. -/
def provided (fine : Bool) (value : Except ReadError α) : Except ReadError α :=
  if fine then value else .error .malformed

/-- The text of a string, if its escapes make characters. -/
def spell (pieces : List Piece) : Except ReadError String :=
  match Piece.text? pieces with
  | some text => .ok text
  | none => .error .malformed

/-- The number of a numeral, if it is finite. -/
def numberOf (numeral : Numeral) : Except ReadError Number :=
  match numeral.number? with
  | some number => .ok number
  | none => .error .malformed

/-! ## What a document holds instead -/

/-- What a document shows in the place of something else. -/
def found : Document → Except ReadError Found
  | .scalar .null => .ok .null
  | .scalar (.bool value) => .ok (.boolean value)
  | .scalar (.number numeral) => do
    match ← numberOf numeral with
    | .int value => .ok (.integer value)
    | .float value => .ok (.float value)
  | .scalar (.text pieces) => do return .text (← spell pieces)
  | .array _ _ => .ok .sequence
  | .object _ _ => .ok .map
  | .fault => .error .malformed

/-- Refuses a document that is not what is wanted. -/
def mismatch (expected : String) (document : Document) : Except ReadError α := do
  throw (.wrongType (← found document) expected)

/-! ## Any value -/

mutual

/-- Whether a document has no fault anywhere. Numbers need not be finite, and strings need
not make characters. -/
def sound : Document → Bool
  | .scalar _ => true
  | .array items closed => soundItems items && closed
  | .object members closed => soundMembers members && closed
  | .fault => false

def soundItems : List Document → Bool
  | [] => true
  | item :: rest => sound item && soundItems rest

def soundMembers : List (List Piece × Document) → Bool
  | [] => true
  | (_, value) :: rest => sound value && soundMembers rest

end

/-- Passes over a value that nobody wants. It may nest as deeply as it likes. -/
def skip (document : Document) : Except ReadError Unit :=
  if sound document then .ok () else .error .malformed

mutual

/-- Any value, with the members of its objects in the order of the text. -/
def json (room : Nat) : Document → Except ReadError Json
  | .scalar .null => .ok .null
  | .scalar (.bool value) => .ok (.bool value)
  | .scalar (.number numeral) => return .number (← numberOf numeral)
  | .scalar (.text pieces) => return .string (← spell pieces)
  | .array items closed => do
    let room ← enter room
    let items ← jsonItems room items
    provided closed (.ok (.array items))
  | .object members closed => do
    let room ← enter room
    let members ← jsonMembers room members
    provided closed (.ok (.object members))
  | .fault => .error .malformed

def jsonItems (room : Nat) : List Document → Except ReadError (List Json)
  | [] => .ok []
  | item :: rest => do
    let item ← json room item
    return item :: (← jsonItems room rest)

def jsonMembers (room : Nat) :
    List (List Piece × Document) → Except ReadError (List (String × Json))
  | [] => .ok []
  | (key, value) :: rest => do
    let key ← spell key
    let value ← json room value
    return (key, value) :: (← jsonMembers room rest)

end

/-! ## Values of one kind -/

def text : Reader String
  | _, .scalar (.text pieces) => spell pieces
  | _, document => mismatch "a string" document

def bool : Reader Bool
  | _, .scalar (.bool value) => .ok value
  | _, document => mismatch "a boolean" document

/-- A binary64 number. A whole number is rounded to the nearest one. -/
def float : Reader Binary64
  | _, .scalar (.number numeral) => do
    match ← numberOf numeral with
    | .int value => .ok ⟨value < 0, Binary64.ofNat value.natAbs⟩
    | .float value => .ok value
  | _, document => mismatch "f64" document

/-- A value that may be `null`. -/
def optional (reader : Reader α) : Reader (Option α)
  | _, .scalar .null => .ok none
  | room, document => return some (← reader room document)

/-- A list of values. -/
def list (reader : Reader α) : Reader (List α)
  | room, .array items closed => do
    let room ← enter room
    let values ← items.mapM (reader room)
    provided closed (.ok values)
  | _, document => mismatch "a sequence" document

/-- The members of an object, all of them wanted. -/
def members : Reader (List (String × Json))
  | room, .object members closed => do
    let room ← enter room
    let members ← jsonMembers room members
    provided closed (.ok members)
  | _, document => mismatch "a map" document

/-! ## Texts -/

/-- Reads a whole text. -/
def run (reader : Reader α) (source : String) : Except ReadError α := do
  let reading := Document.ofText source
  let value ← reader depthLimit reading.document
  provided (!reading.trailing) (.ok value)

end Reader

/-! ## Records -/

/-- How a record is read: field by field into a draft, which is turned into the record when
all fields are there. A record may be written as an object, or as an array of its fields in
their declared order. `τ` is what a field is read from. -/
structure Shape (τ σ α : Type) where
  /-- What messages call the record. -/
  name : String
  /-- The declared names of the fields, in order. -/
  fields : List String
  draft : σ
  /-- Takes in one field under any of its names. -/
  read : σ → String → τ → Except ReadError σ
  /-- The record of a draft. A field that has no value and cannot do without is reported by
  its place and its name. -/
  finish : (Nat → String → ReadError) → σ → Except ReadError α

namespace Shape

/-- Takes in members one after the other. -/
def readMembers (shape : Shape τ σ α) (spell : κ → Except ReadError String)
    (members : List (κ × τ)) : Except ReadError σ :=
  members.foldlM (fun draft member => do shape.read draft (← spell member.1) member.2)
    shape.draft

/-- Takes in items for the fields in order, and gives back those that are left over. -/
def readItems (shape : Shape τ σ α) (draft : σ) :
    List String → List τ → Except ReadError (σ × List τ)
  | _, [] => .ok (draft, [])
  | [], item :: rest => .ok (draft, item :: rest)
  | name :: names, item :: rest => do
    shape.readItems (← shape.read draft name item) names rest

/-- A field is missing in an object. -/
def missing (_ : Nat) (name : String) : ReadError := .missingField name

/-- A field is missing in an array: the array ends before its place. -/
def tooShort (shape : Shape τ σ α) (place : Nat) (_ : String) : ReadError :=
  .wrongLength place (shape.name ++ " with " ++ ReadError.elements shape.fields.length)

/-- Reads a record from a document. Each field is read with the room that is left inside. -/
def reader (shape : Nat → Shape Document σ α) : Reader α
  | room, .object members closed => do
    let room ← Reader.enter room
    let draft ← (shape room).readMembers Reader.spell members
    Reader.provided closed ((shape room).finish missing draft)
  | room, .array items closed => do
    let room ← Reader.enter room
    let (draft, rest) ← (shape room).readItems (shape room).draft (shape room).fields items
    Reader.provided (rest.isEmpty && closed) ((shape room).finish (shape room).tooShort draft)
  | room, document => Reader.mismatch (shape room).name document

/-- A field may be given once. -/
def once (name : String) (slot : Option α) (value : Except ReadError α) :
    Except ReadError (Option α) :=
  match slot with
  | some _ => .error (.duplicateField name)
  | none => return some (← value)

/-- A field that has to be there. -/
def required (absent : Nat → String → ReadError) (place : Nat) (name : String) :
    Option α → Except ReadError α
  | some value => .ok value
  | none => .error (absent place name)

end Shape

end PipeScript
