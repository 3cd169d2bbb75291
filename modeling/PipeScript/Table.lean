-- Hash tables: values by name, each name once. A table can be gone through entry by entry, but
-- the order in which the entries come then belongs to the table and is not told by its values.

namespace PipeScript

variable {α : Type}

/-! ## Lists with keys -/

/-- Replaces the first item with the same key in its place, or adds the item at the end. -/
def putBy (key : α → String) (a : α) : List α → List α
  | [] => [a]
  | b :: rest => if key b = key a then a :: rest else b :: putBy key a rest

theorem map_putBy (key : α → String) (a : α) (items : List α) :
    (putBy key a items).map key =
      if key a ∈ items.map key then items.map key else items.map key ++ [key a] := by
  induction items with
  | nil => rfl
  | cons b rest ih =>
    unfold putBy
    by_cases hb : key b = key a
    · simp [hb]
    · rw [if_neg hb, List.map_cons, ih]
      by_cases ha : key a ∈ rest.map key
      · simp [ha]
      · simp [ha, Ne.symm hb]

theorem nodup_putBy {key : α → String} {items : List α} (h : (items.map key).Nodup) (a : α) :
    ((putBy key a items).map key).Nodup := by
  rw [map_putBy]
  split
  · exact h
  · rename_i hnew
    refine List.nodup_append.mpr ⟨h, by simp, ?_⟩
    intro name hname other hother heq
    rw [List.mem_singleton.mp hother] at heq
    exact hnew (heq ▸ hname)

theorem mem_putBy {key : α → String} {a b : α} {items : List α} (h : b ∈ putBy key a items) :
    b = a ∨ b ∈ items := by
  induction items with
  | nil => exact Or.inl (List.mem_singleton.mp h)
  | cons c rest ih =>
    unfold putBy at h
    split at h
    · rcases List.mem_cons.mp h with rfl | hrest
      · exact Or.inl rfl
      · exact Or.inr (List.mem_cons_of_mem _ hrest)
    · rcases List.mem_cons.mp h with rfl | hrest
      · exact Or.inr List.mem_cons_self
      · exact (ih hrest).imp_right (List.mem_cons_of_mem _)

theorem find?_putBy (key : α → String) (a : α) (items : List α) (name : String) :
    (putBy key a items).find? (key · = name) =
      if key a = name then some a else items.find? (key · = name) := by
  induction items with
  | nil => by_cases ha : key a = name <;> simp [putBy, ha]
  | cons b rest ih =>
    unfold putBy
    by_cases hb : key b = key a
    · -- the item in front gives way to one with the same key
      rw [if_pos hb]
      by_cases ha : key a = name
      · simp [ha]
      · simp [ha, hb]
    · rw [if_neg hb, List.find?_cons, List.find?_cons, ih]
      by_cases ha : key a = name
      · have hname : key b ≠ name := ha ▸ hb
        simp [ha, hname]
      · simp [ha]

/-- An item whose key is new goes to the end. -/
theorem putBy_of_notMem {key : α → String} {a : α} {items : List α} (h : key a ∉ items.map key) :
    putBy key a items = items ++ [a] := by
  induction items with
  | nil => rfl
  | cons b rest ih =>
    rw [List.map_cons, List.mem_cons, not_or] at h
    rw [putBy, if_neg (Ne.symm h.1), ih h.2]
    rfl

/-! ## Tables -/

/-- Values by name. -/
structure Table (α : Type) where
  /-- The entries in the order in which they come when the table is gone through. -/
  entries : List (String × α)
  distinct : (entries.map (·.1)).Nodup
  deriving DecidableEq, Repr

namespace Table

def empty : Table α := ⟨[], .nil⟩

instance : Inhabited (Table α) := ⟨empty⟩

def get? (t : Table α) (name : String) : Option α :=
  (t.entries.find? (·.1 = name)).map (·.2)

def contains (t : Table α) (name : String) : Bool := (t.get? name).isSome

/-- Gives a name a value, in place of the one that it has. -/
def insert (t : Table α) (name : String) (value : α) : Table α :=
  ⟨putBy (·.1) (name, value) t.entries, nodup_putBy t.distinct _⟩

theorem get?_insert (t : Table α) (name : String) (value : α) (other : String) :
    (t.insert name value).get? other = if name = other then some value else t.get? other := by
  simp only [get?, insert, find?_putBy]
  split <;> rfl

/-- An entry is what its name leads to. -/
theorem get?_eq_some (t : Table α) (name : String) (value : α) :
    t.get? name = some value ↔ (name, value) ∈ t.entries := by
  simp only [get?, Option.map_eq_some_iff, List.find?_eq_some_iff_append, decide_eq_true_eq]
  constructor
  · rintro ⟨⟨_, _⟩, ⟨rfl, before, after, heq, _⟩, rfl⟩
    simp [heq]
  · intro hmem
    obtain ⟨before, after, heq⟩ := List.append_of_mem hmem
    refine ⟨(name, value), ⟨rfl, before, after, heq, fun entry hentry => ?_⟩, rfl⟩
    have hdistinct := t.distinct
    rw [heq, List.map_append, List.map_cons, List.nodup_append] at hdistinct
    have hne := hdistinct.2.2 entry.1 (List.mem_map_of_mem hentry) name List.mem_cons_self
    simpa using hne

/-- Tables with the same entries have the same values, in whatever order the entries come. -/
theorem get?_of_perm {t t' : Table α} (h : t.entries.Perm t'.entries) (name : String) :
    t.get? name = t'.get? name := by
  ext value
  rw [get?_eq_some, get?_eq_some, h.mem_iff]

end Table

end PipeScript
