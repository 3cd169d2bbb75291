-- The keys of canonical values in a text: they increase by code points, and so do the bytes that
-- they are written with, in every object inside.
import PipeScript.Json.Canonical
import PipeScript.Proofs.Json.Grammar

namespace PipeScript

/-! ## Strings by their bytes -/

namespace Text

/-- The bytes of a string. -/
def bytes (s : String) : List UInt8 := s.toByteArray.data.toList

theorem bytes_eq (s : String) : bytes s = s.toList.flatMap String.utf8EncodeChar := by
  unfold bytes
  rw [← String.utf8Encode_toList]
  simp [List.utf8Encode]

/-- The first byte decides, or the bytes behind it. -/
theorem byte_lt {a b : Nat} (hb : b < 256) {xs ys : List UInt8} (hle : a ≤ b)
    (h : a = b → xs < ys) : UInt8.ofNat a :: xs < UInt8.ofNat b :: ys := by
  rw [List.cons_lt_cons_iff]
  by_cases hab : a = b
  · subst hab
    exact .inr ⟨rfl, h rfl⟩
  · left
    rw [UInt8.lt_iff_toNat_lt, UInt8.toNat_ofNat', UInt8.toNat_ofNat', Nat.mod_eq_of_lt (by omega),
      Nat.mod_eq_of_lt hb]
    omega

/-- A greater character has greater bytes, whatever follows: no character begins like another. -/
theorem encode_lt {c d : Char} (h : c < d) (xs ys : List UInt8) :
    String.utf8EncodeChar c ++ xs < String.utf8EncodeChar d ++ ys := by
  have hlt : c.val.toNat < d.val.toNat := h
  have hlast : d.val.toNat < 0x110000 := by
    have hvalid := d.valid
    simp only [UInt32.isValidChar, Nat.isValidChar] at hvalid
    omega
  unfold String.utf8EncodeChar
  generalize c.val.toNat = v at hlt
  generalize d.val.toNat = w at hlt hlast
  -- the first byte tells the number of bytes, and each byte behind it six more bits
  dsimp only
  split_ifs
  all_goals first
    | omega
    | simp only [List.cons_append, List.nil_append]
      iterate 4 try refine byte_lt (by omega) (by omega) fun _ => ?_
      omega

theorem encode_ne_nil (c : Char) : String.utf8EncodeChar c ≠ [] := by
  unfold String.utf8EncodeChar
  dsimp only
  split_ifs <;> simp

theorem flatMap_encode_lt {cs ds : List Char} (h : cs < ds) :
    cs.flatMap String.utf8EncodeChar < ds.flatMap String.utf8EncodeChar := by
  induction cs generalizing ds with
  | nil =>
    cases ds with
    | nil => exact absurd h (List.not_lt_nil [])
    | cons d ds =>
      rw [List.flatMap_nil, List.flatMap_cons]
      cases hd : String.utf8EncodeChar d with
      | nil => exact absurd hd (encode_ne_nil d)
      | cons byte rest => exact List.nil_lt_cons _ _
  | cons c cs ih =>
    cases ds with
    | nil => exact absurd h (List.not_lt_nil _)
    | cons d ds =>
      rw [List.flatMap_cons, List.flatMap_cons]
      rcases List.cons_lt_cons_iff.mp h with hcd | ⟨rfl, hrest⟩
      · exact encode_lt hcd _ _
      · exact List.append_left_lt (ih hrest)

/-- Strings in the order of their characters are in the order of their bytes. -/
theorem bytes_lt {s t : String} (h : s < t) : bytes s < bytes t := by
  rw [bytes_eq, bytes_eq]
  exact flatMap_encode_lt (show s.toList < t.toList from h)

end Text

namespace Document

/-! ## The keys of a document -/

/-- Both keys are strings, and the bytes of the first one come before those of the second. -/
def KeyBefore (key key' : List Piece) : Prop :=
  ∃ s t, Piece.text? key = some s ∧ Piece.text? key' = some t ∧ Text.bytes s < Text.bytes t

mutual

/-- The keys of every object inside strictly increase by their bytes. -/
def KeysIncrease : Document → Prop
  | .scalar _ | .fault => True
  | .array items _ => KeysIncreaseItems items
  | .object members _ => (members.map (·.1)).Pairwise KeyBefore ∧ KeysIncreaseMembers members

def KeysIncreaseItems : List Document → Prop
  | [] => True
  | item :: rest => item.KeysIncrease ∧ KeysIncreaseItems rest

def KeysIncreaseMembers : List (List Piece × Document) → Prop
  | [] => True
  | (_, value) :: rest => value.KeysIncrease ∧ KeysIncreaseMembers rest

end

theorem keyBefore_ofText {s t : String} (h : s < t) :
    KeyBefore (Piece.ofText s) (Piece.ofText t) :=
  ⟨s, t, Piece.text?_ofText s, Piece.text?_ofText t, Text.bytes_lt h⟩

theorem map_fst_ofMembers (members : List (String × Json)) :
    (ofMembers members).map (·.1) = (Json.keys members).map Piece.ofText := by
  induction members with
  | nil => rfl
  | cons member rest ih =>
    obtain ⟨key, value⟩ := member
    simp [ofMembers, ih]

mutual

/-- A canonical value is written with increasing keys. -/
theorem keysIncrease_ofJson : (j : Json) → j.canonical = true → (ofJson j).KeysIncrease
  | .null, _ | .bool _, _ | .number _, _ | .string _, _ => trivial
  | .array items, h => keysIncrease_ofItems items h
  | .object members, h => by
    obtain ⟨hkeys, hvalues⟩ := (Json.canonical_object members).mp h
    refine ⟨?_, keysIncrease_ofMembers members hvalues⟩
    rw [map_fst_ofMembers, List.pairwise_map]
    exact hkeys.imp keyBefore_ofText

theorem keysIncrease_ofItems : (items : List Json) → Json.canonicalItems items = true →
    KeysIncreaseItems (ofItems items)
  | [], _ => trivial
  | item :: rest, h => by
    simp only [Json.canonicalItems, Bool.and_eq_true] at h
    exact ⟨keysIncrease_ofJson item h.1, keysIncrease_ofItems rest h.2⟩

theorem keysIncrease_ofMembers : (members : List (String × Json)) →
    Json.canonicalMembers members = true → KeysIncreaseMembers (ofMembers members)
  | [], _ => trivial
  | (_, value) :: rest, h => by
    simp only [Json.canonicalMembers, Bool.and_eq_true] at h
    exact ⟨keysIncrease_ofJson value h.1, keysIncrease_ofMembers rest h.2⟩

end

/-! ## What stands under a key -/

mutual

/-- The values under a key anywhere inside, but not within one another. -/
def under (key : String) : Document → List Document
  | .scalar _ | .fault => []
  | .array items _ => underItems key items
  | .object members _ => underMembers key members

def underItems (key : String) : List Document → List Document
  | [] => []
  | item :: rest => under key item ++ underItems key rest

def underMembers (key : String) : List (List Piece × Document) → List Document
  | [] => []
  | (name, value) :: rest =>
    (if Piece.text? name = some key then [value] else under key value) ++ underMembers key rest

end

theorem underItems_map {α : Type} (key : String) (toJson : α → Json) (items : List α) :
    underItems key (ofItems (items.map toJson)) =
      items.flatMap fun a => under key (ofJson (toJson a)) := by
  induction items with
  | nil => rfl
  | cons a rest ih => simp [ofItems, underItems, ih]

theorem underMembers_append (key : String) (ms ms' : List (List Piece × Document)) :
    underMembers key (ms ++ ms') = underMembers key ms ++ underMembers key ms' := by
  induction ms with
  | nil => rfl
  | cons m rest ih =>
    obtain ⟨name, value⟩ := m
    simp [underMembers, ih]

end Document

end PipeScript
