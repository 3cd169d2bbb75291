-- The laws of the order from one node. It starts with the node and has all that the node
-- reaches, each node once, with or without cycles. Where the node reaches no cycle, every edge
-- leads to a later place. The nodes of a line can be ordered like that in one way only, so on a
-- line the order from its first node, the topological order and the check give the same.
import PipeScript.Proofs.Pipeline.Lines
import PipeScript.Proofs.Pipeline.Orders

namespace PipeScript

open Relation (TransGen ReflTransGen)

/-! ## From one position -/

namespace Wiring

variable {n : Nat} {w : Wiring n}

/-- The node where the traversal starts is the last one to be finished. -/
theorem orderFrom_eq_cons (w : Wiring n) (root : Fin n) :
    ∃ rest, w.orderFrom root = root :: rest := by
  have hv := Traversal.visit_visits (w := w) Traversal.nothing root
  unfold orderFrom
  generalize Traversal.visit w Traversal.nothing root = b at hv
  cases hv with
  | skip hs _ => simp at hs
  | enter _ _ hrest =>
    cases hrest
    exact ⟨_, rfl⟩

theorem orderFrom_ordered {root : Fin n}
    (hac : ∀ i, ReflTransGen w.Leads root i → ¬ TransGen w.Leads i i) :
    w.Ordered (w.orderFrom root) := by
  apply (Traversal.visit_visits Traversal.nothing root).ordered_from_nothing
  intro j hj
  rw [List.mem_singleton] at hj
  exact hj ▸ hac

end Wiring

/-! ## From one id -/

namespace Pipeline

variable {p : Pipeline} {links : List (Fin p.nodes.length × Fin p.nodes.length)}

theorem position?_idAt (hids : p.ids.Nodup) (i : Fin p.nodes.length) :
    p.position? (p.idAt i) = some i := by
  rcases hp : p.position? (p.idAt i) with _ | j
  · have hnone := List.find?_eq_none.mp hp i (List.mem_finRange i)
    simp [idAt] at hnone
  · unfold position? at hp
    have hj := List.find?_some hp
    rw [decide_eq_true_eq] at hj
    rw [idAt_injective hids hj]

theorem position?_eq_none {id : String} (h : id ∉ p.ids) : p.position? id = none := by
  apply List.find?_eq_none.mpr
  intro i _ hi
  exact h (of_decide_eq_true hi ▸ p.idAt_mem i)

theorem orderFrom_idAt (hids : p.ids.Nodup) (hl : p.Linked links) (i : Fin p.nodes.length) :
    p.orderFrom (p.idAt i) = .ok (((Wiring.ofLinks links).orderFrom i).map p.table.get) := by
  unfold orderFrom
  rw [hl.ofPipeline_eq hids, position?_idAt hids]
  rfl

theorem orderFrom_missing (hids : p.ids.Nodup) (hl : p.Linked links) {root : String}
    (h : root ∉ p.ids) : p.orderFrom root = .error .noRoot := by
  unfold orderFrom
  rw [hl.ofPipeline_eq hids, position?_eq_none h]
  rfl

/-- What can be reached is the same by position and by id. -/
theorem Linked.reaches_idAt (hl : p.Linked links) (hids : p.ids.Nodup)
    (i j : Fin p.nodes.length) :
    ReflTransGen p.Leads (p.idAt i) (p.idAt j) ↔
      ReflTransGen (Wiring.ofLinks links).Leads i j := by
  constructor
  · intro h
    rcases Relation.reflTransGen_iff_eq_or_transGen.mp h with heq | hway
    · rw [idAt_injective hids heq]
    · obtain ⟨j', hj', hway⟩ := hl.exists_way hids hway
      rw [← idAt_injective hids hj']
      exact hway.to_reflTransGen
  · intro h
    exact h.lift p.idAt fun a b hab => (hl.leads_idAt hids a b).mpr hab

/-- No cycle by id, no cycle by position. -/
theorem Linked.no_cycle (hl : p.Linked links) (hids : p.ids.Nodup) {root : Fin p.nodes.length}
    (h : ∀ id, ReflTransGen p.Leads (p.idAt root) id → ¬ TransGen p.Leads id id)
    (i : Fin p.nodes.length) (hi : ReflTransGen (Wiring.ofLinks links).Leads root i) :
    ¬ TransGen (Wiring.ofLinks links).Leads i i := by
  intro hway
  apply h (p.idAt i) ((hl.reaches_idAt hids root i).mpr hi)
  exact hway.lift p.idAt fun a b hab => (hl.leads_idAt hids a b).mpr hab

/-! ## The law of the order from one node -/

/-- Where every id is used once and every edge has both ends, the order from a node is refused
if there is no such node, and for nothing else. It has the node first, then all that the node
reaches and nothing else, each node once; and if the node reaches no cycle, every edge between
two nodes of the order leads to a later place. -/
theorem exactly_what_the_root_reaches_is_ordered (p : Pipeline) (hids : p.ids.Nodup)
    (hends : p.EndsExist) (root : String) :
    (∀ flaw, p.orderFrom root = .error flaw ↔ flaw = .noRoot ∧ root ∉ p.ids) ∧
    (root ∈ p.ids → ∃ order, p.orderFrom root = .ok order ∧
      order.head?.map (·.id) = some root ∧ order.Nodup ∧
      (∀ node, node ∈ order ↔ node ∈ p.nodes ∧ ReflTransGen p.Leads root node.id) ∧
      ((∀ id, ReflTransGen p.Leads root id → ¬ TransGen p.Leads id id) →
        ∀ u ∈ order, ∀ v ∈ order, p.Leads u.id v.id → order.idxOf u < order.idxOf v)) := by
  obtain ⟨links, hl⟩ := exists_links hends
  constructor
  · intro flaw
    by_cases hroot : root ∈ p.ids
    · obtain ⟨i, rfl⟩ := exists_idAt hroot
      simp [orderFrom_idAt hids hl, hroot]
    · rw [orderFrom_missing hids hl hroot]
      simp [hroot, eq_comm]
  · intro hroot
    obtain ⟨i, rfl⟩ := exists_idAt hroot
    obtain ⟨hnd, hmem⟩ := Traversal.visit_finished (w := .ofLinks links) i
    obtain ⟨rest, hrest⟩ := (Wiring.ofLinks links).orderFrom_eq_cons i
    refine ⟨_, orderFrom_idAt hids hl i, ?_, hnd.map (table_get_injective hids), ?_, ?_⟩
    · rw [hrest]
      rfl
    · intro node
      rw [List.mem_map]
      constructor
      · rintro ⟨j, hj, rfl⟩
        exact ⟨List.get_mem p.nodes j, (hl.reaches_idAt hids i j).mpr ((hmem j).mp hj)⟩
      · rintro ⟨hnode, hway⟩
        obtain ⟨j, rfl⟩ := exists_table_get hnode
        exact ⟨j, (hmem j).mpr ((hl.reaches_idAt hids i j).mp hway), rfl⟩
    · intro hac u hu v hv huv
      obtain ⟨j, hj, rfl⟩ := List.mem_map.mp hu
      obtain ⟨k, _, rfl⟩ := List.mem_map.mp hv
      have hordered := Wiring.orderFrom_ordered (hl.no_cycle hids hac)
      exact idxOf_lt_of_ordered hids hl hordered hnd hj (.single huv)

/-- A ring of `a` and `b` with a node in front, and behind it a tail with one edge twice. -/
def ringWithTail : Pipeline where
  nodes := [⟨"d", .input "d"⟩, ⟨"front", .input "f"⟩, ⟨"c", .input "c"⟩, ⟨"b", .input "b"⟩,
    ⟨"a", .input "a"⟩]
  edges := [⟨"front", "a", none⟩, ⟨"b", "a", none⟩, ⟨"a", "b", none⟩, ⟨"b", "c", none⟩,
    ⟨"c", "d", none⟩, ⟨"c", "d", some "x"⟩]

theorem a_ring_is_ordered_from_its_root :
    ringWithTail.orderFrom "x" = .error .noRoot ∧
    (∃ order, ringWithTail.orderFrom "a" = .ok order ∧ order.head?.map (·.id) = some "a" ∧
      order.Nodup ∧ ⟨"b", .input "b"⟩ ∈ order ∧ ⟨"front", .input "f"⟩ ∉ order) ∧
    ∃ order, ringWithTail.orderFrom "c" = .ok order ∧
      order.idxOf ⟨"c", .input "c"⟩ < order.idxOf ⟨"d", .input "d"⟩ := by
  have hids : ringWithTail.ids.Nodup := by decide
  have hends : ringWithTail.EndsExist := by
    unfold EndsExist
    decide
  have hlaw := exactly_what_the_root_reaches_is_ordered ringWithTail hids hends
  have hfront : ∀ id, ¬ ringWithTail.Leads id "front" := by
    rintro _ ⟨edge, hedge, rfl, htarget⟩
    revert edge
    decide
  have hd : ∀ id, ¬ ringWithTail.Leads "d" id := by
    rintro _ ⟨edge, hedge, hsource, rfl⟩
    revert edge
    decide
  have hc : ∀ id, ringWithTail.Leads "c" id → id = "d" := by
    rintro _ ⟨edge, hedge, hsource, rfl⟩
    revert edge
    decide
  have hab : ringWithTail.Leads "a" "b" := ⟨⟨"a", "b", none⟩, by decide, rfl, rfl⟩
  have hcd : ringWithTail.Leads "c" "d" := ⟨⟨"c", "d", none⟩, by decide, rfl, rfl⟩
  refine ⟨((hlaw "x").1 .noRoot).mpr ⟨rfl, by decide⟩, ?_, ?_⟩
  · obtain ⟨order, hok, hhead, hnd, hmem, _⟩ := (hlaw "a").2 (by decide)
    refine ⟨order, hok, hhead, hnd, (hmem _).mpr ⟨by decide, .single hab⟩, fun hm => ?_⟩
    rcases ReflTransGen.cases_tail ((hmem _).mp hm).2 with heq | ⟨id, _, hid⟩
    · exact absurd heq (by decide)
    · exact hfront id hid
  · obtain ⟨order, hok, _, _, hmem, hbefore⟩ := (hlaw "c").2 (by decide)
    refine ⟨order, hok, hbefore ?_ _ ((hmem _).mpr ⟨by decide, .refl⟩) _
      ((hmem _).mpr ⟨by decide, .single hcd⟩) hcd⟩
    -- from `c` only `d` can be reached, and from `d` nothing
    have hfromD : ∀ id, ReflTransGen ringWithTail.Leads "d" id → id = "d" := by
      intro id hway
      rcases ReflTransGen.cases_head hway with heq | ⟨next, hnext, _⟩
      · exact heq.symm
      · exact absurd hnext (hd next)
    intro id hway hround
    obtain ⟨next, hnext, hback⟩ := TransGen.head'_iff.mp hround
    rcases ReflTransGen.cases_head hway with rfl | ⟨k, hk, hway⟩
    · rw [hc next hnext] at hback
      exact absurd (hfromD _ hback) (by decide)
    · rw [hc k hk] at hway
      rw [hfromD id hway] at hnext
      exact hd next hnext

/-! ## A line has one order -/

/-- A list in which the neighbours of another one come in their order is that list. -/
theorem eq_of_neighbours_forward {α : Type} [DecidableEq α] {line order : List α}
    (hperm : order.Perm line) (hnd : order.Nodup)
    (h : ∀ pair ∈ neighbours line, order.idxOf pair.1 < order.idxOf pair.2) : order = line := by
  -- both lists are sorted by the places in `order`
  have hline : line.Pairwise fun a b => order.idxOf a < order.idxOf b := by
    have : IsTrans α fun a b => order.idxOf a < order.idxOf b := ⟨fun _ _ _ => Nat.lt_trans⟩
    rw [← List.isChain_iff_pairwise, isChain_iff_neighbours]
    exact h
  have horder : order.Pairwise fun a b => order.idxOf a < order.idxOf b := by
    rw [List.pairwise_iff_getElem]
    intro i j hi hj hij
    rw [hnd.idxOf_getElem, hnd.idxOf_getElem]
    exact hij
  refine List.Perm.eq_of_pairwise ?_ horder hline hperm
  intro a b _ _ hab hba
  exact absurd hab (Nat.lt_asymm hba)

/-- Positions of all nodes in which everything points behind are the line. -/
theorem eq_line_of_ordered (hids : p.ids.Nodup) (hl : p.Linked links) {line : List Node}
    (hperm : line.Perm p.nodes) (hpairs : p.pairs.Perm (neighbours (line.map (·.id))))
    {positions : List (Fin p.nodes.length)} (hnd : positions.Nodup) (hall : ∀ i, i ∈ positions)
    (hordered : (Wiring.ofLinks links).Ordered positions) :
    positions.map p.table.get = line := by
  apply eq_of_neighbours_forward
  · exact (map_table_get_perm hnd hall).trans hperm.symm
  · exact hnd.map (table_get_injective hids)
  · rintro ⟨u, v⟩ huv
    obtain ⟨hu, hv⟩ := mem_of_mem_neighbours huv
    obtain ⟨i, rfl⟩ := exists_table_get (hperm.mem_iff.mp hu)
    obtain ⟨j, rfl⟩ := exists_table_get (hperm.mem_iff.mp (List.mem_of_mem_tail hv))
    have hids' : (p.idAt i, p.idAt j) ∈ neighbours (line.map (·.id)) := by
      rw [neighbours_map]
      exact List.mem_map_of_mem huv
    exact idxOf_lt_of_ordered hids hl hordered hnd (hall i)
      (.single ((leads_iff_of_line hpairs _ _).mpr hids'))

/-! ## The law of agreeing orders -/

/-- Where the check accepts a pipeline, in whatever order its nodes and edges are declared, the
topological order and the order from the first node are the order that the check gives. -/
theorem the_orders_of_a_line_agree (p : Pipeline) (order : List Node) (h : p.check = .ok order) :
    p.topologicalOrder = .ok order ∧
    ∃ first rest, order = first :: rest ∧ p.orderFrom first.id = .ok order := by
  obtain ⟨hids, hne, hperm, hpairs⟩ := line_of_check h
  have hline : (order.map (·.id)).Perm p.ids := hperm.map _
  obtain ⟨links, hl⟩ := exists_links (line_endsExist hline hpairs)
  have hac : (Wiring.ofLinks links).Acyclic :=
    (hl.acyclic_iff hids).mp (line_acyclic (hline.nodup_iff.mpr hids) hpairs)
  constructor
  · have hall := (Wiring.ofLinks links).topologicalOrder_perm
    rw [topologicalOrder_eq hids hl]
    congr 1
    exact eq_line_of_ordered hids hl hperm hpairs (hall.nodup_iff.mpr (List.nodup_finRange _))
      (fun i => hall.mem_iff.mpr (List.mem_finRange i)) (Wiring.topologicalOrder_ordered hac)
  · cases order with
    | nil => exact absurd hperm.nil_eq.symm hne
    | cons first rest =>
      refine ⟨first, rest, rfl, ?_⟩
      obtain ⟨i, rfl⟩ := exists_table_get (hperm.mem_iff.mp List.mem_cons_self)
      obtain ⟨hnd, hmem⟩ := Traversal.visit_finished (w := .ofLinks links) i
      have hall : ∀ j, ReflTransGen (Wiring.ofLinks links).Leads i j := by
        intro j
        rw [← hl.reaches_idAt hids]
        exact head_reaches_all hpairs (by simp) _ (hline.mem_iff.mpr (p.idAt_mem j))
      refine (orderFrom_idAt hids hl i).trans ?_
      congr 1
      exact eq_line_of_ordered hids hl hperm hpairs hnd (fun j => (hmem j).mpr (hall j))
        (Wiring.orderFrom_ordered fun j _ => hac j)

theorem the_orders_of_a_line_declared_backwards_agree :
    backwards.check = .ok backwards.nodes.reverse ∧
    backwards.topologicalOrder = .ok backwards.nodes.reverse ∧
    backwards.orderFrom "a" = .ok backwards.nodes.reverse := by
  have hcheck : backwards.check = .ok backwards.nodes.reverse :=
    check_of_line (by decide) (by simp [backwards]) (List.reverse_perm _) (by decide)
  obtain ⟨htopological, first, rest, horder, hfrom⟩ :=
    the_orders_of_a_line_agree backwards _ hcheck
  obtain ⟨rfl, _⟩ := List.cons.inj horder
  exact ⟨hcheck, htopological, hfrom⟩

end Pipeline

end PipeScript
