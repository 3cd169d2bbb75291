-- A JSON text as far as it can be read. A document is the tree that its tokens begin, and
-- the first fault stands in it at the very place where the text goes wrong, so that a
-- reader that walks the tree in order meets every problem in the order of the text.
import PipeScript.Json.Token

namespace PipeScript

/-- A JSON text as far as it can be read. An array or object that is not closed is where the
reading ended. -/
inductive Document where
  | scalar (value : Scalar)
  | array (items : List Document) (closed : Bool)
  | object (members : List (List Piece × Document)) (closed : Bool)
  /-- A value was wanted and none begins here. -/
  | fault
  deriving Repr, Inhabited

namespace Document

/-! ## Building the tree -/

/-- What a value is read for: an item of an array or a member of an object, with what
stands before it, the last one first. -/
inductive Frame where
  | item (before : List Document)
  | member (before : List (List Piece × Document)) (key : List Piece)
  deriving Repr, Inhabited

/-- What may come next, with what has been read. -/
inductive Place where
  | value (stack : List Frame)
  | firstItem (stack : List Frame)
  | afterItem (items : List Document) (stack : List Frame)
  | firstKey (stack : List Frame)
  | nextKey (members : List (List Piece × Document)) (stack : List Frame)
  | colon (members : List (List Piece × Document)) (key : List Piece) (stack : List Frame)
  | afterMember (members : List (List Piece × Document)) (stack : List Frame)
  /-- The document is complete. -/
  | whole (document : Document)
  deriving Repr, Inhabited

/-- Hands a complete value to what it was read for. -/
def put (value : Document) : List Frame → Place
  | [] => .whole value
  | .item before :: stack => .afterItem (value :: before) stack
  | .member before key :: stack => .afterMember ((key, value) :: before) stack

/-- The document whose reading ended inside `value`: nothing around it is closed. -/
def enclose (value : Document) : List Frame → Document
  | [] => value
  | .item before :: stack => enclose (.array (value :: before).reverse false) stack
  | .member before key :: stack =>
    enclose (.object ((key, value) :: before).reverse false) stack

/-- A value begins, or the reading ends. -/
def start (stack : List Frame) : Token → Except Document Place
  | .scalar value => .ok (put (.scalar value) stack)
  | .beginArray => .ok (.firstItem stack)
  | .beginObject => .ok (.firstKey stack)
  | _ => .error (enclose .fault stack)

/-- One more token of a document that is not yet complete; an error is the document at which
the reading ends. -/
def step : Place → Token → Except Document Place
  | .value stack, token => start stack token
  | .firstItem stack, .endArray => .ok (put (.array [] true) stack)
  | .firstItem stack, token => start (.item [] :: stack) token
  | .afterItem items stack, .comma => .ok (.value (.item items :: stack))
  | .afterItem items stack, .endArray => .ok (put (.array items.reverse true) stack)
  | .afterItem items stack, _ => .error (enclose (.array items.reverse false) stack)
  | .firstKey stack, .endObject => .ok (put (.object [] true) stack)
  | .firstKey stack, .scalar (.text key) => .ok (.colon [] key stack)
  | .firstKey stack, _ => .error (enclose (.object [] false) stack)
  | .nextKey members stack, .scalar (.text key) => .ok (.colon members key stack)
  | .nextKey members stack, _ => .error (enclose (.object members.reverse false) stack)
  | .colon members key stack, .colon => .ok (.value (.member members key :: stack))
  | .colon members key stack, _ =>
    .error (enclose (.object ((key, .fault) :: members).reverse false) stack)
  | .afterMember members stack, .comma => .ok (.nextKey members stack)
  | .afterMember members stack, .endObject =>
    .ok (put (.object members.reverse true) stack)
  | .afterMember members stack, _ => .error (enclose (.object members.reverse false) stack)
  | .whole document, _ => .error document

/-- A text as it was read: its document, and whether the text goes on behind it. -/
structure Reading where
  document : Document
  trailing : Bool
  deriving Repr, Inhabited

/-- Reads tokens from a place on. The end of the tokens is like a token that fits nowhere,
unless the document is complete. -/
def build : Place → List Token → Reading
  | .whole document, [] => ⟨document, false⟩
  | .whole document, _ :: _ => ⟨document, true⟩
  | place, [] =>
    match step place .fault with
    | .ok _ => ⟨.fault, false⟩
    | .error document => ⟨document, false⟩
  | place, token :: rest =>
    match step place token with
    | .ok place => build place rest
    | .error document => ⟨document, false⟩

/-- Reads a text. -/
def ofText (text : String) : Reading := build (.value []) (Token.ofText text)

end Document

end PipeScript
