-- The wiring of a pipeline is an exact picture of its edges. `links` are the edges by
-- position; the wiring exists when every id is used once and every edge has both ends, and
-- then its two tables can be read off the links.
import Mathlib.Data.List.Basic
import Mathlib.Data.List.Nodup
import Mathlib.Data.List.FinRange
import Mathlib.Data.Set.List
import Mathlib.Logic.Relation
import PipeScript.Pipeline.Wiring

namespace PipeScript

/-! ## Ids and edges -/

namespace Pipeline

/-- The ids of the nodes, in the order of declaration. -/
def ids (p : Pipeline) : List String := p.nodes.map (·.id)

/-- Both ends of every edge are nodes. -/
def EndsExist (p : Pipeline) : Prop :=
  ∀ edge ∈ p.edges, edge.source ∈ p.ids ∧ edge.target ∈ p.ids

/-- The source and the target of every edge, in the order of declaration. -/
def pairs (p : Pipeline) : List (String × String) := p.edges.map fun e => (e.source, e.target)

/-- Some edge connects `a` to `b`. -/
def Leads (p : Pipeline) (a b : String) : Prop := ∃ e ∈ p.edges, e.source = a ∧ e.target = b

/-- The id at a position. -/
def idAt (p : Pipeline) (i : Fin p.nodes.length) : String := (p.table.get i).id

/-- `links` are the edges by position. -/
def Linked (p : Pipeline) (links : List (Fin p.nodes.length × Fin p.nodes.length)) : Prop :=
  links.map (fun l => (p.idAt l.1, p.idAt l.2)) = p.pairs

theorem leads_iff_mem_pairs (p : Pipeline) (a b : String) : p.Leads a b ↔ (a, b) ∈ p.pairs := by
  simp [Leads, pairs]

theorem map_table_get (p : Pipeline) : (List.finRange p.nodes.length).map p.table.get = p.nodes :=
  List.map_get_finRange p.nodes

/-- All positions, in any order, give all nodes. -/
theorem map_table_get_perm {p : Pipeline} {positions : List (Fin p.nodes.length)}
    (hnd : positions.Nodup) (hall : ∀ i, i ∈ positions) :
    (positions.map p.table.get).Perm p.nodes := by
  have hperm : positions.Perm (List.finRange p.nodes.length) := by
    rw [List.perm_ext_iff_of_nodup hnd (List.nodup_finRange _)]
    simpa using hall
  have hnodes := hperm.map p.table.get
  rwa [map_table_get] at hnodes

theorem map_idAt (p : Pipeline) : (List.finRange p.nodes.length).map p.idAt = p.ids := by
  unfold ids
  conv_rhs => rw [← p.map_table_get, List.map_map]
  rfl

theorem idAt_mem (p : Pipeline) (i : Fin p.nodes.length) : p.idAt i ∈ p.ids := by
  rw [← p.map_idAt]
  exact List.mem_map_of_mem (List.mem_finRange i)

theorem exists_idAt {p : Pipeline} {id : String} (h : id ∈ p.ids) : ∃ i, p.idAt i = id := by
  rw [← p.map_idAt] at h
  obtain ⟨i, _, hi⟩ := List.mem_map.mp h
  exact ⟨i, hi⟩

theorem idAt_injective {p : Pipeline} (h : p.ids.Nodup) : Function.Injective p.idAt := by
  rw [← p.map_idAt] at h
  intro i j hij
  exact List.inj_on_of_nodup_map h (List.mem_finRange i) (List.mem_finRange j) hij

theorem Linked.leads_iff {p : Pipeline} {links : List (Fin p.nodes.length × Fin p.nodes.length)}
    (h : p.Linked links) (a b : String) :
    p.Leads a b ↔ ∃ i j, (i, j) ∈ links ∧ p.idAt i = a ∧ p.idAt j = b := by
  rw [leads_iff_mem_pairs, ← h]
  simp

end Pipeline

/-! ## Ids that repeat -/

theorem firstRepeat_eq_none (seen : Std.HashSet String) (ids : List String) :
    firstRepeat seen ids = none ↔ ids.Nodup ∧ ∀ id ∈ ids, id ∉ seen := by
  induction ids generalizing seen with
  | nil => simp [firstRepeat]
  | cons id rest ih =>
    unfold firstRepeat
    by_cases h : id ∈ seen
    · simp [h]
    · rw [if_neg (by simpa using h), ih]
      simp only [List.nodup_cons, List.mem_cons, Std.HashSet.mem_insert, beq_iff_eq]
      constructor
      · rintro ⟨hnd, hnew⟩
        refine ⟨⟨fun hm => hnew id hm (Or.inl rfl), hnd⟩, ?_⟩
        rintro other (rfl | ho)
        · exact h
        · exact fun hs => hnew other ho (Or.inr hs)
      · rintro ⟨⟨hnot, hnd⟩, hnew⟩
        refine ⟨hnd, fun other ho => ?_⟩
        rintro (rfl | hs)
        · exact hnot ho
        · exact hnew other (Or.inr ho) hs

/-! ## The position of an id -/

/-- Entries with different keys are all found again. -/
theorem getElem?_foldl_insert {α : Type} (entries : List (String × α)) (map : Std.HashMap String α)
    (hnd : (entries.map (·.1)).Nodup) (id : String) (a : α) :
    (entries.foldl (fun map entry => map.insert entry.1 entry.2) map)[id]? = some a ↔
      (id, a) ∈ entries ∨ (id ∉ entries.map (·.1) ∧ map[id]? = some a) := by
  induction entries generalizing map with
  | nil => simp
  | cons entry rest ih =>
    obtain ⟨key, b⟩ := entry
    simp only [List.map_cons, List.nodup_cons] at hnd
    rw [List.foldl_cons, ih _ hnd.2, Std.HashMap.getElem?_insert]
    by_cases hk : key = id
    · subst hk
      have hnot : (key, a) ∉ rest := fun hm => hnd.1 (List.mem_map_of_mem hm)
      simp [hnot, hnd.1, eq_comm]
    · simp [hk, Ne.symm hk]

namespace Pipeline

theorem positions_eq (p : Pipeline) :
    p.positions = ((List.finRange p.nodes.length).map fun i => (p.idAt i, i)).foldl
      (fun map entry => map.insert entry.1 entry.2) ∅ := by
  unfold positions
  rw [← Vector.foldl_toList]
  congr 1
  apply List.ext_getElem
  · simp
  · intro i h1 h2
    simp [idAt, Vector.get]

theorem positions_get (p : Pipeline) (h : p.ids.Nodup) (id : String) (i : Fin p.nodes.length) :
    p.positions[id]? = some i ↔ p.idAt i = id := by
  have hkeys : (((List.finRange p.nodes.length).map fun i => (p.idAt i, i)).map (·.1)).Nodup := by
    rw [List.map_map]
    exact p.map_idAt ▸ h
  rw [positions_eq, getElem?_foldl_insert _ _ hkeys]
  simp

end Pipeline

/-! ## The tables of a list of links -/

namespace Wiring

variable {n : Nat}

/-- An edge of the wiring connects `i` to `j`. -/
def Leads (w : Wiring n) (i j : Fin n) : Prop := j ∈ w.successors.get i

theorem get_set {α : Type} (v : Vector α n) (i j : Fin n) (a : α) :
    (v.set i a i.isLt).get j = if i = j then a else v.get j := by
  show (v.set i.val a i.isLt)[j.val] = if i = j then a else v[j.val]
  rw [Vector.getElem_set]
  simp [Fin.ext_iff]

theorem successors_ofLinks (links : List (Fin n × Fin n)) (i : Fin n) :
    (ofLinks links).successors.get i = (links.filter (·.1 = i)).map (·.2) := by
  induction links with
  | nil => exact Vector.getElem_replicate _
  | cons l rest ih =>
    show (addLink l (ofLinks rest)).successors.get i = _
    unfold addLink
    rw [get_set]
    by_cases h : l.1 = i
    · simp [h, ih]
    · simp [h, ih]

theorem incoming_ofLinks (links : List (Fin n × Fin n)) (i : Fin n) :
    (ofLinks links).incoming.get i = links.countP (·.2 = i) := by
  induction links with
  | nil => exact Vector.getElem_replicate _
  | cons l rest ih =>
    show (addLink l (ofLinks rest)).incoming.get i = _
    unfold addLink
    rw [get_set]
    by_cases h : l.2 = i
    · simp [h, ih]
    · simp [h, ih]

theorem leads_ofLinks (links : List (Fin n × Fin n)) (i j : Fin n) :
    (ofLinks links).Leads i j ↔ (i, j) ∈ links := by
  unfold Leads
  rw [successors_ofLinks]
  simp

theorem incoming_ofLinks_eq_zero (links : List (Fin n × Fin n)) (j : Fin n) :
    (ofLinks links).incoming.get j = 0 ↔ ∀ i, ¬ (ofLinks links).Leads i j := by
  rw [incoming_ofLinks, List.countP_eq_zero]
  simp only [leads_ofLinks, decide_eq_true_eq]
  constructor
  · intro h i hi
    exact h (i, j) hi rfl
  · rintro h ⟨i, k⟩ hl rfl
    exact h i hl

/-! ## The wiring of a pipeline -/

theorem link_eq_ok (p : Pipeline) (h : p.ids.Nodup) (e : Edge)
    (l : Fin p.nodes.length × Fin p.nodes.length) :
    link p.positions e = .ok l ↔ (p.idAt l.1, p.idAt l.2) = (e.source, e.target) := by
  rw [Prod.mk.injEq, ← p.positions_get h, ← p.positions_get h]
  unfold link
  split
  · rename_i source target hs ht
    rw [hs, ht]
    simp [Prod.ext_iff]
  · rename_i hs
    simp [hs]
  · rename_i hs ht
    simp [ht]

theorem mapM_link_eq_ok (p : Pipeline) (h : p.ids.Nodup) (edges : List Edge)
    (links : List (Fin p.nodes.length × Fin p.nodes.length)) :
    edges.mapM (link p.positions) = .ok links ↔
      links.map (fun l => (p.idAt l.1, p.idAt l.2)) = edges.map fun e => (e.source, e.target) := by
  induction edges generalizing links with
  | nil => cases links <;> simp [pure, Except.pure]
  | cons e edges ih =>
    rw [List.mapM_cons, List.map_cons, List.map_eq_cons_iff]
    simp only [← ih, ← link_eq_ok p h]
    rcases link p.positions e with flaw | l
    · simp [bind, Except.bind]
    · rcases edges.mapM (link p.positions) with flaw | rest
      · simp [bind, Except.bind]
      · simp [bind, Except.bind, pure, Except.pure, eq_comm]

/-- The wiring of a pipeline exists when its ids are used once and its edges have both ends;
it is then the wiring of the links. -/
theorem ofPipeline_eq_ok (p : Pipeline) (w : Wiring p.nodes.length) :
    ofPipeline p = .ok w ↔ p.ids.Nodup ∧ ∃ links, p.Linked links ∧ w = ofLinks links := by
  have hrep := firstRepeat_eq_none ∅ p.ids
  unfold ofPipeline
  rw [show p.nodes.map (·.id) = p.ids from rfl]
  rcases hr : firstRepeat ∅ p.ids with _ | id
  · have hnd : p.ids.Nodup := (hrep.mp hr).1
    unfold Pipeline.Linked Pipeline.pairs
    simp only [hnd, true_and, ← mapM_link_eq_ok p hnd]
    rcases p.edges.mapM (link p.positions) with flaw | links
    · simp [bind, Except.bind]
    · simp [bind, Except.bind, pure, Except.pure, eq_comm]
  · have hnd : ¬ p.ids.Nodup := by
      intro hnd
      rw [hrep.mpr ⟨hnd, by simp⟩] at hr
      cases hr
    simp [hnd]

end Wiring

namespace Pipeline

theorem exists_links {p : Pipeline} (hends : p.EndsExist) : ∃ links, p.Linked links := by
  have hlink : ∀ pair ∈ p.pairs, ∃ l : Fin p.nodes.length × Fin p.nodes.length,
      (p.idAt l.1, p.idAt l.2) = pair := by
    intro pair hp
    obtain ⟨e, he, rfl⟩ := List.mem_map.mp hp
    obtain ⟨i, hi⟩ := exists_idAt (hends e he).1
    obtain ⟨j, hj⟩ := exists_idAt (hends e he).2
    exact ⟨(i, j), by rw [hi, hj]⟩
  unfold Linked
  rw [← Set.mem_range, Set.range_list_map]
  exact hlink

theorem Linked.ofPipeline_eq {p : Pipeline}
    {links : List (Fin p.nodes.length × Fin p.nodes.length)} (h : p.Linked links)
    (hids : p.ids.Nodup) : Wiring.ofPipeline p = .ok (.ofLinks links) :=
  (Wiring.ofPipeline_eq_ok p _).mpr ⟨hids, links, h, rfl⟩

theorem Linked.length_eq {p : Pipeline}
    {links : List (Fin p.nodes.length × Fin p.nodes.length)} (h : p.Linked links) :
    links.length = p.edges.length := by
  have := congrArg List.length h
  simpa [pairs] using this

theorem Linked.endsExist {p : Pipeline} {links : List (Fin p.nodes.length × Fin p.nodes.length)}
    (h : p.Linked links) : p.EndsExist := by
  intro e he
  have hm : (e.source, e.target) ∈ p.pairs := List.mem_map_of_mem he
  rw [← h] at hm
  obtain ⟨l, _, hl⟩ := List.mem_map.mp hm
  obtain ⟨hs, ht⟩ := Prod.mk.inj hl
  exact ⟨hs ▸ p.idAt_mem l.1, ht ▸ p.idAt_mem l.2⟩

end Pipeline

end PipeScript
