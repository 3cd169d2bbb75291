-- The list and the index of a registry stay in step: an id leads to a slot exactly if the command
-- in that slot has the id. As long as they are in step, a registry is its list and nothing more,
-- and everything it answers can be found by going through the list.
import PipeScript.Command.Registry

namespace PipeScript

/-- An item goes to the first place that has its key. -/
theorem putBy_eq_set {α : Type} {key : α → String} {a : α} {items : List α} {place : Nat}
    (h : (items.map key)[place]? = some (key a))
    (hfirst : ∀ j < place, (items.map key)[j]? ≠ some (key a)) :
    putBy key a items = items.set place a := by
  induction items generalizing place with
  | nil => simp at h
  | cons b rest ih =>
    unfold putBy
    cases place with
    | zero =>
      have hb : key b = key a := by simpa using h
      rw [if_pos hb]
      rfl
    | succ place =>
      have hb : key b ≠ key a := by simpa using hfirst 0 (by omega)
      rw [if_neg hb, ih (by simpa using h)]
      · rfl
      · intro j hj
        simpa using hfirst (j + 1) (by omega)

namespace Command

/-! ## Registries without an index -/

/-- A list of commands, where a command is found by going through the list. -/
structure Listing where
  commands : List Definition

namespace Listing

def empty : Listing := ⟨[]⟩

/-- Replaces the command with the same id, or adds one at the end. -/
def register (l : Listing) (d : Definition) : Listing := ⟨putBy (·.id) d l.commands⟩

def lookup (l : Listing) (id : String) : Option Definition := l.commands.find? (·.id = id)

def contains (l : Listing) (id : String) : Bool := l.commands.any (·.id = id)

def addAlias? (l : Listing) (name existing : String) : Option Listing :=
  (l.lookup existing).map fun d => l.register { d with id := name }

end Listing

namespace Registry

/-! ## In step -/

/-- A registry without its index. -/
def unindexed (r : Registry) : Listing := ⟨r.commands⟩

/-- An id leads to a slot exactly if the command in that slot has the id. -/
def InStep (r : Registry) : Prop :=
  ∀ (id : String) (slot : Nat), r.index.get? id = some slot ↔ r.ids[slot]? = some id

variable {r : Registry}

theorem inStep_empty : empty.InStep := fun _ _ => by simp [empty, ids, Table.empty, Table.get?]

/-- There are no two slots with the same id. -/
theorem InStep.slot_unique (h : r.InStep) {id : String} {i j : Nat} (hi : r.ids[i]? = some id)
    (hj : r.ids[j]? = some id) : i = j := by
  rw [← h] at hi hj
  rw [hi] at hj
  exact Option.some.inj hj

theorem InStep.contains_iff (h : r.InStep) (id : String) :
    r.contains id = true ↔ id ∈ r.ids := by
  rw [contains, Table.contains, Option.isSome_iff_exists, List.mem_iff_getElem?]
  exact exists_congr fun slot => h id slot

theorem InStep.get?_eq_none (h : r.InStep) (id : String) :
    r.index.get? id = none ↔ id ∉ r.ids := by
  rw [Option.eq_none_iff_forall_ne_some, List.mem_iff_getElem?, not_exists]
  exact forall_congr' fun slot => not_congr (h id slot)

/-- A slot that an id leads to is there, and has the command with that id. -/
theorem InStep.command_in_slot (h : r.InStep) {id : String} {slot : Nat}
    (hslot : r.index.get? id = some slot) : ∃ d, r.commands[slot]? = some d ∧ d.id = id := by
  have hid := (h id slot).mp hslot
  rw [ids, List.getElem?_map, Option.map_eq_some_iff] at hid
  exact hid

/-! ## Registries in step are lists -/

/-- The slot of an id has what is found for it by going through the list. -/
theorem InStep.lookup_eq (h : r.InStep) (id : String) : r.lookup id = r.unindexed.lookup id := by
  unfold lookup Listing.lookup unindexed
  cases hslot : r.index.get? id with
  | none =>
    have hnew := (h.get?_eq_none id).mp hslot
    rw [Option.map_none, eq_comm, List.find?_eq_none]
    intro d hd hid
    exact hnew (of_decide_eq_true hid ▸ List.mem_map_of_mem hd)
  | some slot =>
    obtain ⟨d, hd, hid⟩ := h.command_in_slot hslot
    obtain ⟨hlt, hget⟩ := List.getElem?_eq_some_iff.mp hd
    rw [Option.map_some, List.getElem!_eq_getElem?_getD, hd, Option.getD_some, eq_comm,
      List.find?_eq_some_iff_getElem]
    refine ⟨by simpa using hid, slot, hlt, hget, fun j hj => ?_⟩
    -- an earlier command with this id would have the same slot
    have hne : r.commands[j].id ≠ id := by
      intro heq
      have hj' : r.ids[j]? = some id := by simp [ids, heq, Nat.lt_trans hj hlt]
      have := h.slot_unique hj' ((h id slot).mp hslot)
      omega
    simpa using hne

theorem InStep.contains_eq (h : r.InStep) (id : String) :
    r.contains id = r.unindexed.contains id := by
  rw [Bool.eq_iff_iff, h.contains_iff]
  simp [unindexed, Listing.contains, ids]

/-- Writing to the slot of an id, or behind all of them, is what a list does without slots. -/
theorem InStep.register_eq (h : r.InStep) (d : Definition) :
    (r.register d).unindexed = r.unindexed.register d := by
  unfold register unindexed Listing.register
  cases hslot : r.index.get? d.id with
  | none => rw [putBy_of_notMem ((h.get?_eq_none d.id).mp hslot)]
  | some slot =>
    have hid := (h d.id slot).mp hslot
    rw [putBy_eq_set hid]
    intro j hj hj'
    have := h.slot_unique hj' hid
    omega

theorem InStep.addAlias?_eq (h : r.InStep) (name existing : String) :
    (r.addAlias? name existing).map unindexed = r.unindexed.addAlias? name existing := by
  unfold addAlias? Listing.addAlias?
  rw [← h.lookup_eq, Option.map_map]
  exact congrArg (fun f => (r.lookup existing).map f) (funext fun d => h.register_eq _)

/-! ## One command more -/

/-- A new id goes to the end of the list, one that is known changes nothing there. -/
theorem InStep.ids_register (h : r.InStep) (d : Definition) :
    (r.register d).ids = if d.id ∈ r.ids then r.ids else r.ids ++ [d.id] := by
  have hcommands := congrArg Listing.commands (h.register_eq d)
  unfold ids
  rw [show (r.register d).commands = putBy (·.id) d r.commands from hcommands]
  exact map_putBy _ d r.commands

/-- Registering a command keeps the list and the index in step. -/
theorem InStep.register (h : r.InStep) (d : Definition) : (r.register d).InStep := by
  intro id slot
  rw [h.ids_register]
  cases hslot : r.index.get? d.id with
  | some place =>
    have hindex : (r.register d).index = r.index := by simp [Registry.register, hslot]
    rw [hindex, if_pos (List.mem_of_getElem? ((h d.id place).mp hslot))]
    exact h id slot
  | none =>
    have hnew := (h.get?_eq_none d.id).mp hslot
    have hindex : (r.register d).index = r.index.insert d.id r.ids.length := by
      simp [Registry.register, hslot, ids]
    rw [hindex, if_neg hnew, Table.get?_insert]
    by_cases hid : d.id = id
    · -- the new slot, and no other, is behind those that were there
      rw [if_pos hid, ← hid, Option.some.injEq]
      constructor
      · rintro rfl
        simp
      · intro hget
        rcases Nat.lt_trichotomy slot r.ids.length with hlt | heq | hgt
        · rw [List.getElem?_append_left hlt] at hget
          exact absurd (List.mem_of_getElem? hget) hnew
        · exact heq.symm
        · rw [List.getElem?_eq_none (by simpa using Nat.succ_le_of_lt hgt)] at hget
          cases hget
    · rw [if_neg hid, h id slot]
      by_cases hlt : slot < r.ids.length
      · rw [List.getElem?_append_left hlt]
      · have hold : r.ids[slot]? = none := List.getElem?_eq_none (by omega)
        rw [hold, List.getElem?_append_right (by omega), List.getElem?_singleton]
        split
        · simpa using hid
        · rfl

theorem InStep.lookup_register (h : r.InStep) (d : Definition) (id : String) :
    (r.register d).lookup id = if d.id = id then some d else r.lookup id := by
  rw [(h.register d).lookup_eq, h.register_eq, h.lookup_eq]
  exact find?_putBy _ d r.commands id

/-- A command is found under its own id. -/
theorem InStep.id_of_lookup (h : r.InStep) {id : String} {d : Definition}
    (hd : r.lookup id = some d) : d.id = id := by
  rw [h.lookup_eq] at hd
  have hfound := List.find?_some hd
  exact of_decide_eq_true hfound

-- out of step, an id can lead to any command
example (d : Definition) : (Registry.mk [d] (Table.empty.insert "grep" 0)).lookup "grep" = some d :=
  rfl

/-- The commands of the list are those that are found under their ids. -/
theorem InStep.mem_commands (h : r.InStep) (d : Definition) :
    d ∈ r.commands ↔ r.lookup d.id = some d := by
  constructor
  · intro hd
    obtain ⟨i, hi⟩ := List.mem_iff_getElem?.mp hd
    have hslot : r.index.get? d.id = some i := (h d.id i).mpr (by simp [ids, hi])
    simp [lookup, hslot, hi]
  · intro hd
    rw [h.lookup_eq] at hd
    exact List.mem_of_find?_eq_some hd

theorem contains_eq_isSome_lookup (r : Registry) (id : String) :
    r.contains id = (r.lookup id).isSome := by
  unfold contains Table.contains lookup
  rw [Option.isSome_map]

theorem addAlias?_eq_some {existing : String} {d : Definition} (name : String)
    (h : r.lookup existing = some d) :
    r.addAlias? name existing = some (r.register { d with id := name }) := by
  unfold addAlias?
  rw [h]
  rfl

/-- What stands under another id stays where it is. -/
theorem InStep.getElem?_register (h : r.InStep) {d c : Definition} {i : Nat}
    (hc : r.commands[i]? = some c) (hid : c.id ≠ d.id) :
    (r.register d).commands[i]? = some c := by
  unfold Registry.register
  cases hslot : r.index.get? d.id with
  | none =>
    obtain ⟨hlt, _⟩ := List.getElem?_eq_some_iff.mp hc
    rw [List.getElem?_append_left hlt]
    exact hc
  | some slot =>
    have hne : slot ≠ i := by
      rintro rfl
      obtain ⟨d', hd', hd''⟩ := h.command_in_slot hslot
      rw [hc] at hd'
      cases hd'
      exact hid hd''
    rw [List.getElem?_set_ne hne]
    exact hc

end Registry

end Command

end PipeScript
