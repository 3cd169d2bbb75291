-- Records that say themselves what they are are read back. The tag is found in front of the
-- other fields, and these are kept as they were written, whatever they are called and whatever
-- they hold.
import PipeScript.Json.Tagged
import PipeScript.Proofs.Json.Readers

namespace PipeScript

variable {α β τ κ : Type}

/-! ## Small records -/

theorem Kept.text_string (s : String) : text (.string s) = .ok s := rfl

theorem Kept.bool_bool (b : Bool) : bool (.bool b) = .ok b := rfl

namespace Shape

section

variable {name first second : String} {ignore : τ → Except ReadError Unit}
  {read : τ → Except ReadError α} {readFirst : τ → Except ReadError α}
  {readSecond : τ → Except ReadError β} {spell : κ → Except ReadError String}

theorem readMembers_one {key : κ} {value : τ} {a : α} (hkey : spell key = .ok first)
    (hread : read value = .ok a) :
    (one name ignore first read).readMembers spell [(key, value)] = .ok (some a) := by
  simp [readMembers, one, once, hkey, hread, bind, Except.bind, pure, Except.pure]

theorem readMembers_two {key other : κ} {value more : τ} {a : α} {b : β}
    (hne : second ≠ first) (hkey : spell key = .ok first) (hother : spell other = .ok second)
    (hread : readFirst value = .ok a) (hmore : readSecond more = .ok b) :
    (two name ignore first readFirst second readSecond).readMembers spell
      [(key, value), (other, more)] = .ok (some a, some b) := by
  simp [readMembers, two, once, hne, hkey, hother, hread, hmore, bind, Except.bind, pure,
    Except.pure]

end

/-- A record with one field is read from the field that was kept. -/
theorem ofKept_one (name field : String) {read : Json → Except ReadError α} {j : Json} {a : α}
    (h : read j = .ok a) :
    (one name Kept.ignore field read).ofKept (.byName [(field, j)]) = .ok a := by
  rw [ofKept, readMembers_one rfl h]
  rfl

/-- A record with two fields is read from the fields that were kept. -/
theorem ofKept_two (name : String) {first second : String} (hne : second ≠ first)
    {readFirst : Json → Except ReadError α} {readSecond : Json → Except ReadError β}
    {j k : Json} {a : α} {b : β} (ha : readFirst j = .ok a) (hb : readSecond k = .ok b) :
    (two name Kept.ignore first readFirst second readSecond).ofKept
      (.byName [(first, j), (second, k)]) = .ok (a, b) := by
  rw [ofKept, readMembers_two hne rfl rfl ha hb]
  rfl

/-- A record with two fields is found when both fields are. -/
theorem finds_two (name : String) {first second : String} (hne : second ≠ first)
    {readFirst : Reader α} {readSecond : Reader β} {j k : Json} {a : α} {b : β}
    (ha : Reader.Finds readFirst j a) (hb : Reader.Finds readSecond k b) :
    Reader.Finds (Shape.reader fun room =>
        two name Reader.skip first (readFirst room) second (readSecond room))
      (.object [(first, j), (second, k)]) (a, b) := by
  apply finds_record
  intro room hroom
  rw [Json.depthMembers, Json.depthMembers] at hroom
  refine ⟨(some a, some b), ?_, rfl⟩
  exact readMembers_two hne (Reader.spell_ofText first) (Reader.spell_ofText second)
    (ha room (by omega)) (hb room (by omega))

end Shape

/-! ## Tags -/

namespace Kept

/-- A variant is found by its name, if no two have the same. -/
theorem variant_name {all : List β} {name : β → String} (hnames : (all.map name).Nodup) {b : β}
    (h : b ∈ all) : variant all name (name b) = .ok b := by
  have hfind : all.find? (name · = name b) = some b := by
    induction all with
    | nil => cases h
    | cons first rest ih =>
      rw [List.map_cons, List.nodup_cons] at hnames
      rcases List.mem_cons.mp h with rfl | hrest
      · simp
      · have hne : name first ≠ name b := fun he => hnames.1 (he ▸ List.mem_map_of_mem hrest)
        simp [hne, ih hnames.2 hrest]
  unfold variant
  rw [hfind]

/-- Members that are not the tag are all kept. -/
theorem splitMembers_ofMembers {tag : String} (readTag : Document → Except ReadError β)
    (found : Option β) {fields : List (String × Json)} (htag : tag ∉ Json.keys fields)
    (hwhole : Json.wholeMembers fields = true) {room : Nat}
    (hroom : Json.depthMembers fields ≤ room) :
    splitMembers tag readTag room (Document.ofMembers fields) found = .ok (found, fields) := by
  induction fields with
  | nil => rfl
  | cons field rest ih =>
    obtain ⟨key, value⟩ := field
    rw [Json.keys_cons, List.mem_cons, not_or] at htag
    rw [Json.wholeMembers, Bool.and_eq_true] at hwhole
    rw [Json.depthMembers] at hroom
    have hvalue := Reader.json_ofJson value hwhole.1 room (by omega)
    rw [Document.ofMembers, splitMembers]
    simp only [Reader.spell_ofText, bind, Except.bind, Ne.symm htag.1, if_false, hvalue,
      ih htag.2 hwhole.2 (by omega)]
    rfl

/-- A record with its tag in front is found: the tag, and the other fields. -/
theorem finds_tagged {tag : String} (expected : String) {readTag : Document → Except ReadError β}
    {j : Json} {b : β} {fields : List (String × Json)} (hread : readTag (.ofJson j) = .ok b)
    (htag : tag ∉ Json.keys fields) (hwhole : Json.wholeMembers fields = true) :
    Reader.Finds (reader tag expected readTag) (.object ((tag, j) :: fields))
      (b, .byName fields) := by
  intro room hroom
  cases room with
  | zero => cases hroom
  | succ room =>
    have hfields : Json.depthMembers fields ≤ room := by
      rw [Json.depth, Json.depthMembers] at hroom
      omega
    rw [Document.ofJson, reader, Document.ofMembers]
    simp only [Reader.enter, bind, Except.bind, splitMembers, Reader.spell_ofText, if_true,
      Shape.once, hread, pure, Except.pure, splitMembers_ofMembers readTag _ htag hwhole hfields]
    rfl

theorem splitKeptMembers_fields {tag : String} (readTag : Json → Except ReadError β)
    (found : Option β) {fields : List (String × Json)} (htag : tag ∉ Json.keys fields) :
    splitKeptMembers tag readTag fields found = .ok (found, fields) := by
  induction fields with
  | nil => rfl
  | cons field rest ih =>
    obtain ⟨key, value⟩ := field
    rw [Json.keys_cons, List.mem_cons, not_or] at htag
    rw [splitKeptMembers, if_neg (Ne.symm htag.1), ih htag.2]
    rfl

/-- A tag in front of fields that were kept is told from them. -/
theorem split_tagged (tag : String) (fields : List (String × Json))
    {readTag : Json → Except ReadError β} {j : Json} {b : β} (hread : readTag j = .ok b)
    (htag : tag ∉ Json.keys fields) :
    split tag readTag (.byName ((tag, j) :: fields)) = .ok (b, .byName fields) := by
  unfold split
  simp only [splitKeptMembers, if_true, Shape.once, hread, bind, Except.bind, pure, Except.pure,
    splitKeptMembers_fields readTag _ htag]

end Kept

end PipeScript
