-- Ways along the edges of a pipeline. A list is a way when its neighbouring pairs are edges,
-- a list of different items is known by its neighbouring pairs, and without a cycle every way
-- back ends at a first node.
import Mathlib.Data.Fintype.Card
import Mathlib.Data.Fintype.EquivFin
import Mathlib.Data.List.Chain
import PipeScript.Proofs.Pipeline.Links

namespace PipeScript

open Relation (TransGen ReflTransGen)

/-! ## Neighbouring pairs -/

namespace Pipeline

variable {α β : Type}

@[simp] theorem neighbours_nil : neighbours ([] : List α) = [] := rfl

@[simp] theorem neighbours_singleton (a : α) : neighbours [a] = [] := rfl

@[simp] theorem neighbours_cons_cons (a b : α) (l : List α) :
    neighbours (a :: b :: l) = (a, b) :: neighbours (b :: l) := rfl

theorem neighbours_map (f : α → β) (l : List α) :
    neighbours (l.map f) = (neighbours l).map fun pair => (f pair.1, f pair.2) := by
  unfold neighbours
  rw [← List.map_drop, List.zip_map]
  rfl

theorem isChain_iff_neighbours (R : α → α → Prop) (l : List α) :
    l.IsChain R ↔ ∀ pair ∈ neighbours l, R pair.1 pair.2 := by
  induction l with
  | nil => simp
  | cons a rest ih =>
    cases rest with
    | nil => simp
    | cons b rest => simp [ih]

theorem mem_of_mem_neighbours {l : List α} {a b : α} (h : (a, b) ∈ neighbours l) :
    a ∈ l ∧ b ∈ l.tail := by
  unfold neighbours at h
  rw [List.drop_one] at h
  exact List.of_mem_zip h

/-- Every item but the first one comes behind another one. -/
theorem exists_neighbour_before {l : List α} {b : α} (h : b ∈ l.tail) :
    ∃ a, (a, b) ∈ neighbours l := by
  induction l with
  | nil => cases h
  | cons a rest ih =>
    cases rest with
    | nil => cases h
    | cons c rest =>
      rcases List.mem_cons.mp h with rfl | hb
      · exact ⟨a, by simp⟩
      · obtain ⟨d, hd⟩ := ih hb
        exact ⟨d, by simp [hd]⟩

/-- In a list of different items nothing comes before the first one. -/
theorem head_not_behind {l : List α} {a b c : α} (hnd : (a :: l).Nodup)
    (h : (b, c) ∈ neighbours (a :: l)) : c ≠ a := by
  rintro rfl
  exact (List.nodup_cons.mp hnd).1 (mem_of_mem_neighbours h).2

/-- Different items can be put in only one order with given neighbouring pairs. -/
theorem eq_of_neighbours_perm {l l' : List α} (hnd : l.Nodup) (hp : l.Perm l')
    (hn : (neighbours l).Perm (neighbours l')) : l = l' := by
  induction l generalizing l' with
  | nil => exact hp.nil_eq
  | cons a rest ih =>
    have hnd' := hp.nodup_iff.mp hnd
    cases l' with
    | nil => exact absurd hp.symm.nil_eq (by simp)
    | cons a' rest' =>
      -- the first item is the one that comes behind no other
      have hhead : a = a' := by
        by_contra hne
        have hm : a ∈ rest' := by
          rcases List.mem_cons.mp (hp.mem_iff.mp List.mem_cons_self) with h | h
          · exact absurd h hne
          · exact h
        obtain ⟨b, hb⟩ := exists_neighbour_before (l := a' :: rest') hm
        exact head_not_behind hnd (hn.mem_iff.mpr hb) rfl
      subst hhead
      have hrest : rest.Perm rest' := hp.cons_inv
      congr 1
      apply ih (List.nodup_cons.mp hnd).2 hrest
      cases rest with
      | nil => rw [hrest.nil_eq]
      | cons b rest =>
        cases rest' with
        | nil => exact absurd hrest.symm.nil_eq (by simp)
        | cons b' rest' =>
          simp only [neighbours_cons_cons] at hn
          have hb : (a, b) ∈ (a, b') :: neighbours (b' :: rest') :=
            hn.mem_iff.mp List.mem_cons_self
          have hbb : b = b' := by
            rcases List.mem_cons.mp hb with h | h
            · exact (Prod.mk.inj h).2
            · exact absurd (mem_of_mem_neighbours h).1 (List.nodup_cons.mp hnd').1
          subst hbb
          exact hn.cons_inv

end Pipeline

/-! ## Without a cycle -/

namespace Wiring

variable {n : Nat}

/-- No way leads from a node back to it. -/
def Acyclic (w : Wiring n) : Prop := ∀ i, ¬ TransGen w.Leads i i

/-- Without a cycle every node can be reached from one where no edge ends. -/
theorem Acyclic.exists_first {w : Wiring n} (h : w.Acyclic) (i : Fin n) :
    ∃ first, (∀ j, ¬ w.Leads j first) ∧ ReflTransGen w.Leads first i := by
  have : Std.Irrefl (TransGen w.Leads) := ⟨h⟩
  induction i using (Finite.wellFounded_of_trans_of_irrefl (TransGen w.Leads)).induction with
  | _ i ih =>
    by_cases hi : ∃ j, w.Leads j i
    · obtain ⟨j, hj⟩ := hi
      obtain ⟨first, hfirst, hway⟩ := ih j (TransGen.single hj)
      exact ⟨first, hfirst, hway.tail hj⟩
    · exact ⟨i, fun j hj => hi ⟨j, hj⟩, ReflTransGen.refl⟩

/-- A way that starts and ends with the same node is a cycle. -/
theorem transGen_of_isChain {w : Wiring n} {a b : Fin n} {l : List (Fin n)}
    (h : (a :: b :: l).IsChain w.Leads) :
    TransGen w.Leads a ((b :: l).getLast (List.cons_ne_nil b l)) := by
  rw [List.isChain_cons_cons] at h
  exact TransGen.head' h.1 (List.relationReflTransGen_of_exists_isChain_cons l h.2 rfl)

end Wiring

namespace Pipeline

/-- No way leads from an id back to it. -/
def Acyclic (p : Pipeline) : Prop := ∀ id, ¬ TransGen p.Leads id id

/-- There is no cycle where every edge leads to a higher rank. -/
theorem acyclic_of_rank {p : Pipeline} (rank : String → Nat)
    (h : ∀ a b, p.Leads a b → rank a < rank b) : p.Acyclic := by
  intro id hid
  have hlt : ∀ a b, TransGen p.Leads a b → rank a < rank b := by
    intro a b hab
    induction hab with
    | single hab => exact h _ _ hab
    | tail _ hbc ih => exact Nat.lt_trans ih (h _ _ hbc)
  exact Nat.lt_irrefl _ (hlt id id hid)

variable {p : Pipeline} {links : List (Fin p.nodes.length × Fin p.nodes.length)}

theorem Linked.leads_idAt (hl : p.Linked links) (hids : p.ids.Nodup) (i j : Fin p.nodes.length) :
    p.Leads (p.idAt i) (p.idAt j) ↔ (Wiring.ofLinks links).Leads i j := by
  rw [hl.leads_iff, Wiring.leads_ofLinks]
  constructor
  · rintro ⟨i', j', hm, hi, hj⟩
    rw [← idAt_injective hids hi, ← idAt_injective hids hj]
    exact hm
  · intro hm
    exact ⟨i, j, hm, rfl, rfl⟩

/-- A way between ids is a way between their positions. -/
theorem Linked.exists_way (hl : p.Linked links) (hids : p.ids.Nodup) {i : Fin p.nodes.length}
    {b : String} (h : TransGen p.Leads (p.idAt i) b) :
    ∃ j, p.idAt j = b ∧ TransGen (Wiring.ofLinks links).Leads i j := by
  induction h with
  | single h =>
    obtain ⟨i', j, hm, hi, hj⟩ := (hl.leads_iff _ _).mp h
    rw [idAt_injective hids hi] at hm
    exact ⟨j, hj, TransGen.single ((Wiring.leads_ofLinks _ _ _).mpr hm)⟩
  | tail _ h ih =>
    obtain ⟨k, rfl, hk⟩ := ih
    obtain ⟨k', j, hm, hi, hj⟩ := (hl.leads_iff _ _).mp h
    rw [idAt_injective hids hi] at hm
    exact ⟨j, hj, hk.tail ((Wiring.leads_ofLinks _ _ _).mpr hm)⟩

theorem Linked.acyclic_iff (hl : p.Linked links) (hids : p.ids.Nodup) :
    p.Acyclic ↔ (Wiring.ofLinks links).Acyclic := by
  constructor
  · intro h i hi
    exact h (p.idAt i) (hi.lift p.idAt fun a b hab => (hl.leads_idAt hids a b).mpr hab)
  · intro h id hid
    obtain ⟨b, hb, _⟩ := TransGen.head'_iff.mp hid
    obtain ⟨i, _, _, rfl, _⟩ := (hl.leads_iff _ _).mp hb
    obtain ⟨j, hj, hway⟩ := hl.exists_way hids hid
    rw [idAt_injective hids hj] at hway
    exact h i hway

end Pipeline

end PipeScript
