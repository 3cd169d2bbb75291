-- Readers read back what was written. Every reader is taken on its own: it reads a thing from
-- the document of the JSON value that the thing is written as, if there is room for the arrays
-- and objects inside.
import PipeScript.Pipeline.Basic
import PipeScript.Proofs.Json.Grammar
import PipeScript.Proofs.Params

namespace PipeScript

variable {α σ : Type}

/-! ## Members -/

namespace Json

theorem wholeMembers_iff (members : List (String × Json)) :
    wholeMembers members = true ↔ ∀ member ∈ members, member.2.whole = true := by
  induction members with
  | nil => simp [wholeMembers]
  | cons member rest ih =>
    obtain ⟨key, value⟩ := member
    simp [wholeMembers, ih]

theorem depth_le_of_mem_members {members : List (String × Json)} {key : String} {j : Json}
    (h : (key, j) ∈ members) : j.depth ≤ depthMembers members := by
  induction members with
  | nil => cases h
  | cons member rest ih =>
    obtain ⟨key', value⟩ := member
    rw [depthMembers]
    rcases List.mem_cons.mp h with h | h
    · cases h
      omega
    · have := ih h
      omega

end Json

namespace Reader

/-- The reader finds `a` where `j` was written. -/
def Finds (reader : Reader α) (j : Json) (a : α) : Prop :=
  ∀ room, j.depth ≤ room → reader room (.ofJson j) = .ok a

/-! ## Values of one kind -/

@[simp] theorem spell_ofText (s : String) : spell (Piece.ofText s) = .ok s := by
  simp [spell]

theorem numberOf_ofNumber {n : Number} (h : Json.wholeNumber n = true) :
    numberOf (.ofNumber n) = .ok n := by
  cases n with
  | float x => cases h
  | int value =>
    simp only [Json.wholeNumber, Bool.and_eq_true, decide_eq_true_eq] at h
    unfold numberOf Numeral.ofNumber
    rw [Numeral.number?_ofInt h.1 h.2]

theorem finds_text (s : String) : Finds text (.string s) s := fun _ _ => spell_ofText s

theorem finds_bool (b : Bool) : Finds bool (.bool b) b := fun _ _ => rfl

mutual

theorem json_ofJson : (j : Json) → j.whole = true → Finds json j j
  | .null, _, _, _ => rfl
  | .bool _, _, _, _ => rfl
  | .number value, h, _, _ => by
    rw [Document.ofJson, json, numberOf_ofNumber h]
    rfl
  | .string value, _, _, _ => by
    rw [Document.ofJson, json, spell_ofText]
    rfl
  | .array items, h, 0, hroom => by cases hroom
  | .array items, h, room + 1, hroom => by
    rw [Document.ofJson, json]
    simp only [enter, bind, Except.bind]
    rw [jsonItems_ofItems items h room (Nat.le_of_succ_le_succ hroom)]
    rfl
  | .object members, h, 0, hroom => by cases hroom
  | .object members, h, room + 1, hroom => by
    rw [Document.ofJson, json]
    simp only [enter, bind, Except.bind]
    rw [jsonMembers_ofMembers members h room (Nat.le_of_succ_le_succ hroom)]
    rfl

theorem jsonItems_ofItems : (items : List Json) → Json.wholeItems items = true →
    ∀ room, Json.depthItems items ≤ room → jsonItems room (Document.ofItems items) = .ok items
  | [], _, _, _ => rfl
  | item :: rest, h, room, hroom => by
    simp only [Json.wholeItems, Bool.and_eq_true] at h
    rw [Json.depthItems] at hroom
    rw [Document.ofItems, jsonItems, json_ofJson item h.1 room (by omega),
      jsonItems_ofItems rest h.2 room (by omega)]
    rfl

theorem jsonMembers_ofMembers : (members : List (String × Json)) →
    Json.wholeMembers members = true → ∀ room, Json.depthMembers members ≤ room →
    jsonMembers room (Document.ofMembers members) = .ok members
  | [], _, _, _ => rfl
  | (key, value) :: rest, h, room, hroom => by
    simp only [Json.wholeMembers, Bool.and_eq_true] at h
    rw [Json.depthMembers] at hroom
    rw [Document.ofMembers, jsonMembers, spell_ofText, json_ofJson value h.1 room (by omega),
      jsonMembers_ofMembers rest h.2 room (by omega)]
    rfl

end

theorem finds_members {members : List (String × Json)} (h : Json.wholeMembers members = true) :
    Finds Reader.members (.object members) members := by
  intro room hroom
  cases room with
  | zero => cases hroom
  | succ room =>
    rw [Document.ofJson, Reader.members]
    simp only [enter, bind, Except.bind]
    rw [jsonMembers_ofMembers members h room (Nat.le_of_succ_le_succ hroom)]
    rfl

/-- A value that is there is found where it may be missing. -/
theorem Finds.optional {reader : Reader α} {j : Json} {a : α} (h : Finds reader j a)
    (hj : j ≠ .null) : Finds (Reader.optional reader) j (some a) := by
  intro room hroom
  have hread := h room hroom
  cases j with
  | null => exact absurd rfl hj
  | bool _ | number _ | string _ | array _ | object _ =>
    simp only [Document.ofJson, Reader.optional] at hread ⊢
    rw [hread]
    rfl

theorem mapM_ofItems {reader : Reader α} {toJson : α → Json} {items : List α}
    (h : ∀ a ∈ items, Finds reader (toJson a) a) {room : Nat}
    (hroom : Json.depthItems (items.map toJson) ≤ room) :
    (Document.ofItems (items.map toJson)).mapM (reader room) = .ok items := by
  induction items with
  | nil => rfl
  | cons a rest ih =>
    rw [List.map_cons, Json.depthItems] at hroom
    rw [List.map_cons, Document.ofItems, List.mapM_cons, h a List.mem_cons_self room (by omega),
      ih (fun b hb => h b (List.mem_cons_of_mem _ hb)) (by omega)]
    rfl

/-- A list is found when each of its items is. -/
theorem finds_list {reader : Reader α} {toJson : α → Json} {items : List α}
    (h : ∀ a ∈ items, Finds reader (toJson a) a) :
    Finds (Reader.list reader) (.array (items.map toJson)) items := by
  intro room hroom
  cases room with
  | zero => cases hroom
  | succ room =>
    rw [Document.ofJson, Reader.list]
    simp only [enter, bind, Except.bind]
    rw [mapM_ofItems h (Nat.le_of_succ_le_succ hroom)]
    rfl

/-- What a reader finds is read from a text that holds the document. -/
theorem Finds.run_ofText {reader : Reader α} {j : Json} {a : α} (h : Finds reader j a)
    (hdepth : j.depth ≤ depthLimit) {text : String}
    (htext : Document.ofText text = ⟨.ofJson j, false⟩) : run reader text = .ok a := by
  unfold run
  rw [htext]
  simp only [h depthLimit hdepth, bind, Except.bind]
  rfl

/-- What a reader finds is read from the text over several lines. -/
theorem Finds.run_pretty {reader : Reader α} {j : Json} {a : α} (h : Finds reader j a)
    (hdepth : j.depth ≤ depthLimit) : run reader (j.pretty 0) = .ok a :=
  h.run_ofText hdepth (Document.ofText_pretty j)

/-- What a reader finds is read from the text on one line. -/
theorem Finds.run_compact {reader : Reader α} {j : Json} {a : α} (h : Finds reader j a)
    (hdepth : j.depth ≤ depthLimit) : run reader j.compact = .ok a :=
  h.run_ofText hdepth (Document.ofText_compact j)

end Reader

/-! ## Records -/

namespace Shape

/-- Taking in what was written as `members` leads from one draft to another. -/
def Takes (shape : Shape Document σ α) (draft : σ) (members : List (String × Json))
    (next : σ) : Prop :=
  (Document.ofMembers members).foldlM
    (fun draft member => do shape.read draft (← Reader.spell member.1) member.2) draft = .ok next

variable {shape : Shape Document σ α} {draft next last : σ}

theorem takes_nil (draft : σ) : shape.Takes draft [] draft := rfl

theorem Takes.append {members more : List (String × Json)} (h : shape.Takes draft members next)
    (hmore : shape.Takes next more last) : shape.Takes draft (members ++ more) last := by
  unfold Takes at *
  rw [Document.ofMembers_append, List.foldlM_append, h]
  exact hmore

theorem takes_single {key : String} {j : Json}
    (h : shape.read draft key (.ofJson j) = .ok next) : shape.Takes draft [(key, j)] next := by
  unfold Takes
  simp only [Document.ofMembers, List.foldlM_cons, List.foldlM_nil, Reader.spell_ofText]
  simp [bind, Except.bind, pure, Except.pure, h]

/-- A record is found when its members lead to a draft of it. -/
theorem finds_record {shape : Nat → Shape Document σ α} {members : List (String × Json)} {a : α}
    (h : ∀ room, Json.depthMembers members ≤ room → ∃ draft,
      (shape room).Takes (shape room).draft members draft ∧
      (shape room).finish missing draft = .ok a) :
    Reader.Finds (Shape.reader shape) (.object members) a := by
  intro room hroom
  cases room with
  | zero => cases hroom
  | succ room =>
    obtain ⟨draft, htakes, hfinish⟩ := h room (Nat.le_of_succ_le_succ hroom)
    rw [Document.ofJson, Shape.reader]
    simp only [Reader.enter, bind, Except.bind]
    rw [show (shape room).readMembers Reader.spell (Document.ofMembers members) = .ok draft
      from htakes]
    exact hfinish

end Shape

namespace Params

/-- Parameters whose numbers are all whole. -/
def Whole (params : Params) : Prop := Json.wholeMembers params.sorted = true

instance (params : Params) : Decidable params.Whole :=
  inferInstanceAs (Decidable (Json.wholeMembers params.sorted = true))

theorem finds_params {params : Params} (h : params.Whole) :
    Reader.Finds reader (.object params.sorted) params := by
  intro room hroom
  unfold reader
  rw [Reader.finds_members h room hroom]
  exact congrArg Except.ok params.ofList_sorted

end Params

/-- A pipeline whose commands have whole numbers only. -/
def Pipeline.Whole (p : Pipeline) : Prop :=
  ∀ node ∈ p.nodes, ∀ commandId params, node.kind = .command commandId params → params.Whole

end PipeScript
