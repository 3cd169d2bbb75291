-- The document of a JSON value, and the tokens of a document, which build it again.
import PipeScript.Json.Reader
import PipeScript.Proofs.Json.Floats

namespace PipeScript

/-! ## Values that can be read back -/

namespace Json

/-- Whether a number is whole and fits 64 bits, signed below zero. -/
def wholeNumber : Number → Bool
  | .int value => -9223372036854775808 ≤ value && value ≤ 18446744073709551615
  | .float _ => false

mutual

/-- Whether every number inside is whole and fits 64 bits. -/
def whole : Json → Bool
  | .number value => wholeNumber value
  | .array items => wholeItems items
  | .object members => wholeMembers members
  | .null | .bool _ | .string _ => true

def wholeItems : List Json → Bool
  | [] => true
  | item :: rest => item.whole && wholeItems rest

def wholeMembers : List (String × Json) → Bool
  | [] => true
  | (_, value) :: rest => value.whole && wholeMembers rest

end

mutual

/-- How many arrays and objects lie inside one another. -/
def depth : Json → Nat
  | .array items => depthItems items + 1
  | .object members => depthMembers members + 1
  | .null | .bool _ | .number _ | .string _ => 0

def depthItems : List Json → Nat
  | [] => 0
  | item :: rest => max item.depth (depthItems rest)

def depthMembers : List (String × Json) → Nat
  | [] => 0
  | (_, value) :: rest => max value.depth (depthMembers rest)

end

end Json

/-! ## The document of a value -/

namespace Numeral

/-- The numeral of a number. -/
def ofNumber : Number → Numeral
  | .int value => ofInt value
  | .float value => ofFloat value

/-- A number is written as its numeral. -/
theorem text_number (value : Number) : Text (ofNumber value) value.text.toList := by
  cases value with
  | int value =>
    rw [Number.text, String.toList_ofList]
    exact text_intText value
  | float value => exact text_float value

end Numeral

namespace Document

mutual

/-- The document of a value: every array and object is closed. -/
def ofJson : Json → Document
  | .null => .scalar .null
  | .bool value => .scalar (.bool value)
  | .number value => .scalar (.number (.ofNumber value))
  | .string value => .scalar (.text (Piece.ofText value))
  | .array items => .array (ofItems items) true
  | .object members => .object (ofMembers members) true

def ofItems : List Json → List Document
  | [] => []
  | item :: rest => ofJson item :: ofItems rest

def ofMembers : List (String × Json) → List (List Piece × Document)
  | [] => []
  | (key, value) :: rest => (Piece.ofText key, ofJson value) :: ofMembers rest

end

theorem ofMembers_append (ms ms' : List (String × Json)) :
    ofMembers (ms ++ ms') = ofMembers ms ++ ofMembers ms' := by
  induction ms with
  | nil => rfl
  | cons m rest ih =>
    obtain ⟨key, value⟩ := m
    rw [List.cons_append, ofMembers, ofMembers, ih, List.cons_append]

/-! ## The tokens of a document -/

mutual

/-- The tokens of a document. -/
def tokens : Document → List Token
  | .scalar value => [.scalar value]
  | .array items _ => .beginArray :: (itemTokens items ++ [.endArray])
  | .object members _ => .beginObject :: (memberTokens members ++ [.endObject])
  | .fault => [.fault]

def itemTokens : List Document → List Token
  | [] => []
  | item :: rest => item.tokens ++ moreItemTokens rest

/-- The items after the first one, each behind a comma. -/
def moreItemTokens : List Document → List Token
  | [] => []
  | item :: rest => .comma :: (item.tokens ++ moreItemTokens rest)

def memberTokens : List (List Piece × Document) → List Token
  | [] => []
  | (key, value) :: rest =>
    .scalar (.text key) :: .colon :: (value.tokens ++ moreMemberTokens rest)

/-- The members after the first one, each behind a comma. -/
def moreMemberTokens : List (List Piece × Document) → List Token
  | [] => []
  | (key, value) :: rest =>
    .comma :: .scalar (.text key) :: .colon :: (value.tokens ++ moreMemberTokens rest)

end

theorem build_cons {place next : Place} {token : Token} (h : step place token = .ok next)
    (rest : List Token) : build place (token :: rest) = build next rest := by
  cases place with
  | whole document => cases h
  | _ => simp [build, h]

/-- The first item of an array is read like any value. -/
theorem build_firstItem (item : Document) (h : Reader.sound item = true) (stack : List Frame)
    (rest : List Token) :
    build (.firstItem stack) (item.tokens ++ rest) =
      build (.value (.item [] :: stack)) (item.tokens ++ rest) := by
  cases item with
  | fault => cases h
  | scalar value | array items closed | object members closed =>
    simp only [tokens, List.cons_append]
    rw [build_cons rfl, build_cons rfl]

mutual

/-- The tokens of a document build it again, whatever it is read for. -/
theorem build_tokens : (d : Document) → Reader.sound d = true → ∀ (stack : List Frame)
    (rest : List Token), build (.value stack) (d.tokens ++ rest) = build (put d stack) rest
  | .scalar value, _, stack, rest => build_cons rfl rest
  | .fault, h, _, _ => by cases h
  | .array [] closed, h, stack, rest => by
    obtain rfl : closed = true := h
    exact (build_cons rfl _).trans (build_cons rfl rest)
  | .array (item :: items) closed, h, stack, rest => by
    simp only [Reader.sound, Reader.soundItems, Bool.and_eq_true] at h
    obtain ⟨⟨hitem, hitems⟩, rfl⟩ := h
    simp only [tokens, itemTokens, List.cons_append, List.append_assoc, List.nil_append]
    rw [build_cons rfl, build_firstItem item hitem, build_tokens item hitem]
    exact build_moreItems items hitems [item] stack rest
  | .object [] closed, h, stack, rest => by
    obtain rfl : closed = true := h
    exact (build_cons rfl _).trans (build_cons rfl rest)
  | .object ((key, value) :: members) closed, h, stack, rest => by
    simp only [Reader.sound, Reader.soundMembers, Bool.and_eq_true] at h
    obtain ⟨⟨hvalue, hmembers⟩, rfl⟩ := h
    simp only [tokens, memberTokens, List.cons_append, List.append_assoc, List.nil_append]
    rw [build_cons rfl, build_cons rfl, build_cons rfl, build_tokens value hvalue]
    exact build_moreMembers members hmembers [(key, value)] stack rest

theorem build_moreItems : (items : List Document) → Reader.soundItems items = true →
    ∀ (before : List Document) (stack : List Frame) (rest : List Token),
    build (.afterItem before stack) (moreItemTokens items ++ .endArray :: rest) =
      build (put (.array (before.reverse ++ items) true) stack) rest
  | [], _, before, stack, rest => by
    rw [List.append_nil]
    exact build_cons rfl rest
  | item :: items, h, before, stack, rest => by
    simp only [Reader.soundItems, Bool.and_eq_true] at h
    simp only [moreItemTokens, List.cons_append, List.append_assoc]
    rw [build_cons rfl, build_tokens item h.1]
    have hmore := build_moreItems items h.2 (item :: before) stack rest
    rw [List.reverse_cons, List.append_assoc] at hmore
    exact hmore

theorem build_moreMembers : (members : List (List Piece × Document)) →
    Reader.soundMembers members = true →
    ∀ (before : List (List Piece × Document)) (stack : List Frame) (rest : List Token),
    build (.afterMember before stack) (moreMemberTokens members ++ .endObject :: rest) =
      build (put (.object (before.reverse ++ members) true) stack) rest
  | [], _, before, stack, rest => by
    rw [List.append_nil]
    exact build_cons rfl rest
  | (key, value) :: members, h, before, stack, rest => by
    simp only [Reader.soundMembers, Bool.and_eq_true] at h
    simp only [moreMemberTokens, List.cons_append, List.append_assoc]
    rw [build_cons rfl, build_cons rfl, build_cons rfl, build_tokens value h.1]
    have hmore := build_moreMembers members h.2 ((key, value) :: before) stack rest
    rw [List.reverse_cons, List.append_assoc] at hmore
    exact hmore

end

end Document

end PipeScript
