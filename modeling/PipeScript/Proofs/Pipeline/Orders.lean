-- The laws of the topological order. It has every node once, with or without cycles. Where
-- there is no cycle, each node comes before all that it reaches: when a node is finished, what
-- it leads to has been seen, and what is seen and not yet finished leads back to the node.
import PipeScript.Proofs.Pipeline.Verdicts

namespace PipeScript

open Relation (TransGen ReflTransGen)

/-! ## Lists in which everything points behind -/

namespace Wiring

variable {n : Nat} {w : Wiring n} {order : List (Fin n)} {i j : Fin n}

/-- Every node of the list comes before all that it leads to. -/
def Ordered (w : Wiring n) : List (Fin n) → Prop
  | [] => True
  | i :: rest => (∀ j, w.Leads i j → j ∈ rest) ∧ w.Ordered rest

theorem Ordered.leads (h : w.Ordered order) (hnd : order.Nodup) (hi : i ∈ order)
    (hij : w.Leads i j) : j ∈ order ∧ order.idxOf i < order.idxOf j := by
  induction order with
  | nil => cases hi
  | cons first rest ih =>
    obtain ⟨hfirst, hrest⟩ := h
    obtain ⟨hnot, hnd⟩ := List.nodup_cons.mp hnd
    have hbehind : ∀ k ∈ rest, (first :: rest).idxOf k = rest.idxOf k + 1 := by
      intro k hk
      exact List.idxOf_cons_ne rest fun heq => hnot (heq ▸ hk)
    rcases List.mem_cons.mp hi with rfl | hi
    · have hj := hfirst j hij
      rw [hbehind j hj, List.idxOf_cons_self]
      exact ⟨List.mem_cons_of_mem i hj, by omega⟩
    · obtain ⟨hj, hlt⟩ := ih hrest hnd hi
      rw [hbehind i hi, hbehind j hj]
      exact ⟨List.mem_cons_of_mem first hj, by omega⟩

theorem Ordered.reaches (h : w.Ordered order) (hnd : order.Nodup) (hi : i ∈ order)
    (hij : TransGen w.Leads i j) : j ∈ order ∧ order.idxOf i < order.idxOf j := by
  induction hij with
  | single hij => exact h.leads hnd hi hij
  | tail _ hkj ih =>
    obtain ⟨hk, hlt⟩ := ih
    obtain ⟨hj, hlt'⟩ := h.leads hnd hk hkj
    exact ⟨hj, Nat.lt_trans hlt hlt'⟩

end Wiring

/-! ## What is on the way -/

namespace Traversal

variable {n : Nat} {w : Wiring n} {a b c : Answer n} {list more : List (Fin n)} {i : Fin n}

/-- The node has been seen and is not finished. -/
def Open (a : Answer n) (i : Fin n) : Prop := a.1.get i = true ∧ i ∉ a.2

/-- A visit finishes all that it sees. -/
theorem Visits.open_before (h : Visits w a list b) (hi : Open b i) : Open a i := by
  obtain ⟨new, heq, _, hnew⟩ := h.finished
  obtain ⟨hseen, hnot⟩ := hi
  rw [heq, List.mem_append, not_or, hnew] at hnot
  refine ⟨?_, hnot.2⟩
  by_contra hi
  exact hnot.1 ⟨hseen, by simpa using hi⟩

/-- If what is on the way leads to the whole list, and the list reaches no cycle, then the
finished nodes stay in order. -/
theorem Visits.ordered (h : Visits w a list b)
    (hopen : ∀ i, Open a i → ∀ j ∈ list, TransGen w.Leads i j)
    (hac : ∀ j ∈ list, ∀ i, ReflTransGen w.Leads j i → ¬ TransGen w.Leads i i)
    (ha : w.Ordered a.2) : w.Ordered b.2 := by
  induction h with
  | done a => exact ha
  | skip _ _ ih =>
    rw [List.forall_mem_cons] at hac
    exact ih (fun i hi j hj => hopen i hi j (List.mem_cons_of_mem _ hj)) hac.2 ha
  | @enter a b c next more _ hin hrest ih1 ih2 =>
    rw [List.forall_mem_cons] at hac
    have hnext : ¬ TransGen w.Leads next next := hac.1 next .refl
    have hway : ∀ i, Open (a.1.set next true next.isLt, a.2) i →
        i = next ∨ Open a i ∧ TransGen w.Leads i next := by
      rintro i ⟨hseen, hnot⟩
      rcases (get_mark _ _ _).mp hseen with rfl | hseen
      · exact Or.inl rfl
      · exact Or.inr ⟨⟨hseen, hnot⟩, hopen i ⟨hseen, hnot⟩ next List.mem_cons_self⟩
    have hb : w.Ordered b.2 := by
      apply ih1 _ (fun j hj i hji => hac.1 i (.head hj hji)) ha
      intro i hi j hj
      rcases hway i hi with rfl | ⟨_, hin⟩
      · exact .single hj
      · exact .tail hin hj
    apply ih2 _ hac.2
    · -- a successor that is not finished would lead back to the node
      refine ⟨fun j hj => ?_, hb⟩
      by_contra hnot
      rcases hway j (hin.open_before ⟨hin.met hj, hnot⟩) with rfl | ⟨_, hback⟩
      · exact hnext (.single hj)
      · exact hnext (.head hj hback)
    · rintro i ⟨hseen, hnot⟩ j hj
      rw [List.mem_cons, not_or] at hnot
      rcases hway i (hin.open_before ⟨hseen, hnot.2⟩) with rfl | ⟨hi, _⟩
      · exact absurd rfl hnot.1
      · exact hopen i hi j (List.mem_cons_of_mem _ hj)

/-- At the start nothing is on the way, so only cycles could spoil the order. -/
theorem Visits.ordered_from_nothing (h : Visits w nothing list b)
    (hac : ∀ j ∈ list, ∀ i, ReflTransGen w.Leads j i → ¬ TransGen w.Leads i i) :
    w.Ordered b.2 := by
  refine h.ordered ?_ hac trivial
  rintro i ⟨hseen, _⟩
  simp at hseen

/-! ## From all nodes -/

theorem Visits.append (h : Visits w a list b) (hmore : Visits w b more c) :
    Visits w a (list ++ more) c := by
  induction h with
  | done a => exact hmore
  | skip hs _ ih => exact .skip hs (ih hmore)
  | enter hs hin _ _ ih => exact .enter hs hin (ih hmore)

/-- Traversals one after the other are one visit of all their starts. -/
theorem foldl_visits (a : Answer n) (starts : List (Fin n)) :
    Visits w a starts (starts.foldl (visit w) a) := by
  induction starts generalizing a with
  | nil => exact .done a
  | cons start rest ih => exact (visit_visits a start).append (ih _)

end Traversal

namespace Wiring

variable {n : Nat} (w : Wiring n)

theorem topologicalOrder_perm : w.topologicalOrder.Perm (List.finRange n) := by
  have hv := Traversal.foldl_visits (w := w) Traversal.nothing (List.finRange n)
  obtain ⟨new, heq, hnd, hmem⟩ := hv.finished
  have hnew : w.topologicalOrder = new := by simpa [topologicalOrder, Traversal.nothing] using heq
  rw [hnew, List.perm_ext_iff_of_nodup hnd (List.nodup_finRange n)]
  intro i
  rw [hmem]
  simp [hv.met (List.mem_finRange i)]

theorem topologicalOrder_ordered {w : Wiring n} (h : w.Acyclic) : w.Ordered w.topologicalOrder := by
  apply (Traversal.foldl_visits Traversal.nothing (List.finRange n)).ordered_from_nothing
  intro _ _ i _
  exact h i

end Wiring

/-! ## Pipelines -/

namespace Pipeline

variable {p : Pipeline} {links : List (Fin p.nodes.length × Fin p.nodes.length)}

theorem exists_table_get {node : Node} (h : node ∈ p.nodes) : ∃ i, p.table.get i = node := by
  rw [← p.map_table_get] at h
  obtain ⟨i, _, hi⟩ := List.mem_map.mp h
  exact ⟨i, hi⟩

theorem idxOf_map {α β : Type} [DecidableEq α] [DecidableEq β] {f : α → β}
    (hf : Function.Injective f) (l : List α) (a : α) : (l.map f).idxOf (f a) = l.idxOf a := by
  induction l with
  | nil => rfl
  | cons first rest ih => simp [List.idxOf_cons, ih, hf.eq_iff, beq_eq_decide]

theorem table_get_injective (hids : p.ids.Nodup) : Function.Injective p.table.get := by
  intro i j hij
  exact idAt_injective hids (congrArg Node.id hij)

theorem topologicalOrder_eq (hids : p.ids.Nodup) (hl : p.Linked links) :
    p.topologicalOrder = .ok ((Wiring.ofLinks links).topologicalOrder.map p.table.get) := by
  unfold topologicalOrder
  rw [hl.ofPipeline_eq hids]
  rfl

theorem topologicalOrder_of_ofPipeline_error {flaw : Flaw}
    (h : Wiring.ofPipeline p = .error flaw) : p.topologicalOrder = .error flaw := by
  unfold topologicalOrder
  rw [h]
  rfl

/-- In an ordered list of positions, the nodes come before the nodes that they reach. -/
theorem idxOf_lt_of_ordered (hids : p.ids.Nodup) (hl : p.Linked links)
    {order : List (Fin p.nodes.length)} (h : (Wiring.ofLinks links).Ordered order)
    (hnd : order.Nodup) {i j : Fin p.nodes.length} (hi : i ∈ order)
    (hij : TransGen p.Leads (p.idAt i) (p.idAt j)) :
    (order.map p.table.get).idxOf (p.table.get i) <
      (order.map p.table.get).idxOf (p.table.get j) := by
  obtain ⟨j', hj', hway⟩ := hl.exists_way hids hij
  obtain rfl := idAt_injective hids hj'
  obtain ⟨_, hlt⟩ := h.reaches hnd hi hway
  rw [idxOf_map (table_get_injective hids), idxOf_map (table_get_injective hids)]
  exact hlt

/-! ## The law -/

/-- Where every id is used once and every edge has both ends, the topological order has each
node once, and if there is no cycle, before all the nodes that it reaches. It is refused for a
repeated id and for an edge without an end, and for nothing else. -/
theorem each_node_comes_once_and_before_what_it_reaches (p : Pipeline) :
    (p.ids.Nodup → p.EndsExist →
      ∃ order, p.topologicalOrder = .ok order ∧ order.Perm p.nodes ∧
        (p.Acyclic → ∀ u ∈ p.nodes, ∀ v ∈ p.nodes, TransGen p.Leads u.id v.id →
          order.idxOf u < order.idxOf v)) ∧
    ∀ flaw, p.topologicalOrder = .error flaw →
      (¬ p.ids.Nodup ∧ ∃ id ∈ p.ids, flaw = .duplicateNode id) ∨
      (p.ids.Nodup ∧ ¬ p.EndsExist ∧ ∃ edge ∈ p.edges, ∃ missing,
        (missing = edge.source ∨ missing = edge.target) ∧
        flaw = .danglingEdge edge.source missing) := by
  constructor
  · intro hids hends
    obtain ⟨links, hl⟩ := exists_links hends
    have hperm := (Wiring.ofLinks links).topologicalOrder_perm
    refine ⟨_, topologicalOrder_eq hids hl, ?_, ?_⟩
    · have hnodes := hperm.map p.table.get
      rwa [p.map_table_get] at hnodes
    · intro hac u hu v hv huv
      obtain ⟨i, rfl⟩ := exists_table_get hu
      obtain ⟨j, rfl⟩ := exists_table_get hv
      have hordered := Wiring.topologicalOrder_ordered ((hl.acyclic_iff hids).mp hac)
      exact idxOf_lt_of_ordered hids hl hordered (hperm.nodup_iff.mpr (List.nodup_finRange _))
        (hperm.mem_iff.mpr (List.mem_finRange i)) huv
  · intro flaw hflaw
    rcases Wiring.ofPipeline_cases p with ⟨hids, id, hid, hp⟩ |
      ⟨hids, hends, edge, hedge, missing, hmissing, hp⟩ | ⟨hids, hends, _⟩
    · rw [topologicalOrder_of_ofPipeline_error hp] at hflaw
      cases hflaw
      exact Or.inl ⟨hids, id, hid, rfl⟩
    · rw [topologicalOrder_of_ofPipeline_error hp] at hflaw
      cases hflaw
      exact Or.inr ⟨hids, hends, edge, hedge, missing, hmissing, rfl⟩
    · obtain ⟨links, hl⟩ := exists_links hends
      rw [topologicalOrder_eq hids hl] at hflaw
      cases hflaw

/-- Two ways from `a` to `d`, one edge of them twice, and a node apart, declared from the end. -/
def diamond : Pipeline where
  nodes := [⟨"d", .input "d"⟩, ⟨"e", .input "e"⟩, ⟨"c", .input "c"⟩, ⟨"b", .input "b"⟩,
    ⟨"a", .input "a"⟩]
  edges := [⟨"b", "d", none⟩, ⟨"c", "d", none⟩, ⟨"a", "c", none⟩, ⟨"a", "b", none⟩,
    ⟨"a", "c", some "x"⟩]

theorem the_ends_of_a_diamond_are_in_order :
    ∃ order, diamond.topologicalOrder = .ok order ∧ order.Perm diamond.nodes ∧
      order.idxOf ⟨"a", .input "a"⟩ < order.idxOf ⟨"d", .input "d"⟩ := by
  have hac : diamond.Acyclic := by
    apply acyclic_of_rank fun id => if id = "a" then 0 else if id = "d" then 2 else 1
    rintro _ _ ⟨edge, hedge, rfl, rfl⟩
    revert edge
    decide
  have hway : TransGen diamond.Leads "a" "d" :=
    .tail (.single ⟨⟨"a", "b", none⟩, by decide, rfl, rfl⟩) ⟨⟨"b", "d", none⟩, by decide, rfl, rfl⟩
  have hends : diamond.EndsExist := by
    unfold EndsExist
    decide
  obtain ⟨order, hok, hperm, hbefore⟩ :=
    (each_node_comes_once_and_before_what_it_reaches diamond).1 (by decide) hends
  exact ⟨order, hok, hperm, hbefore hac _ (by decide) _ (by decide) hway⟩

end Pipeline

end PipeScript
