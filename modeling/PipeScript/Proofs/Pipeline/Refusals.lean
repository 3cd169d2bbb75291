-- Why a pipeline without a cycle is refused. The check searches and traverses, but its answer
-- can be read off the edges: which nodes no edge ends in, which have two outgoing edges, and
-- which have no edge at all.
import PipeScript.Proofs.Pipeline.CycleSearch
import PipeScript.Proofs.Pipeline.Visits

namespace PipeScript

open Relation (TransGen ReflTransGen)

namespace Pipeline

/-! ## What the edges say -/

/-- The nodes where no edge ends. -/
def starts (p : Pipeline) : List Node :=
  p.nodes.filter fun node => ∀ e ∈ p.edges, e.target ≠ node.id

/-- The nodes where edges leave but none ends. -/
def wiredStarts (p : Pipeline) : List Node :=
  p.starts.filter fun node => ∃ e ∈ p.edges, e.source = node.id

/-- The nodes where no edge leaves and none ends. -/
def isolated (p : Pipeline) : List Node :=
  p.nodes.filter fun node => ∀ e ∈ p.edges, e.source ≠ node.id ∧ e.target ≠ node.id

/-- Where the edges of a node lead, in the order of the edges. -/
def targetsOf (p : Pipeline) (id : String) : List String :=
  (p.edges.filter (·.source = id)).map (·.target)

/-- The first node that two edges leave. -/
def firstBranch (p : Pipeline) : Option Node :=
  p.nodes.find? fun node => 2 ≤ (p.targetsOf node.id).length

/-- Several nodes could be the first one, and not just one of them leads somewhere. -/
def ManyStarts (p : Pipeline) : Prop := 2 ≤ p.starts.length ∧ p.wiredStarts.length ≠ 1

end Pipeline

/-! ## The same by position -/

namespace Wiring

variable {n : Nat}

/-- The start nodes that lead somewhere. -/
def wiredRoots (w : Wiring n) : List (Fin n) :=
  w.roots.filter fun i => !(w.successors.get i).isEmpty

/-- No edge leaves the node and none ends there. -/
def Bare (w : Wiring n) (i : Fin n) : Prop := w.successors.get i = [] ∧ w.incoming.get i = 0

instance (w : Wiring n) (i : Fin n) : Decidable (w.Bare i) :=
  inferInstanceAs (Decidable (w.successors.get i = [] ∧ w.incoming.get i = 0))

end Wiring

namespace Pipeline

section

variable {p : Pipeline} {links : List (Fin p.nodes.length × Fin p.nodes.length)}

theorem targetsOf_idAt (hl : p.Linked links) (hids : p.ids.Nodup) (i : Fin p.nodes.length) :
    p.targetsOf (p.idAt i) = ((Wiring.ofLinks links).successors.get i).map p.idAt := by
  have hpairs : p.targetsOf (p.idAt i) = (p.pairs.filter (·.1 = p.idAt i)).map (·.2) := by
    unfold targetsOf pairs
    rw [List.filter_map, List.map_map]
    rfl
  rw [hpairs, ← hl, List.filter_map, List.map_map, Wiring.successors_ofLinks, List.map_map]
  congr 1
  apply List.filter_congr
  intro l _
  simp [(idAt_injective hids).eq_iff]

theorem no_edge_leaves_iff (hl : p.Linked links) (hids : p.ids.Nodup) (i : Fin p.nodes.length) :
    (∀ e ∈ p.edges, e.source ≠ p.idAt i) ↔ (Wiring.ofLinks links).successors.get i = [] := by
  rw [← List.map_eq_nil_iff (f := p.idAt), ← targetsOf_idAt hl hids]
  simp [targetsOf, List.filter_eq_nil_iff]

theorem no_edge_ends_iff (hl : p.Linked links) (hids : p.ids.Nodup) (i : Fin p.nodes.length) :
    (∀ e ∈ p.edges, e.target ≠ p.idAt i) ↔ (Wiring.ofLinks links).incoming.get i = 0 := by
  rw [Wiring.incoming_ofLinks_eq_zero]
  constructor
  · intro h j hj
    obtain ⟨e, he, _, ht⟩ := (hl.leads_idAt hids j i).mpr hj
    exact h e he ht
  · intro h e he ht
    obtain ⟨j, hj⟩ := exists_idAt (hl.endsExist e he).1
    exact h j ((hl.leads_idAt hids j i).mp ⟨e, he, hj.symm, ht⟩)

theorem starts_eq (hl : p.Linked links) (hids : p.ids.Nodup) :
    p.starts = (Wiring.ofLinks links).roots.map p.table.get := by
  unfold starts Wiring.roots
  conv_lhs => rw [← p.map_table_get, List.filter_map]
  congr 1
  apply List.filter_congr
  intro i _
  exact decide_eq_decide.mpr (no_edge_ends_iff hl hids i)

theorem wiredStarts_eq (hl : p.Linked links) (hids : p.ids.Nodup) :
    p.wiredStarts = (Wiring.ofLinks links).wiredRoots.map p.table.get := by
  unfold wiredStarts Wiring.wiredRoots
  rw [starts_eq hl hids, List.filter_map]
  congr 1
  apply List.filter_congr
  intro i _
  have h := no_edge_leaves_iff hl hids i
  unfold idAt at h
  rw [Function.comp_apply, Bool.eq_iff_iff, decide_eq_true_eq, Bool.not_eq_true',
    List.isEmpty_eq_false_iff, ← not_iff_not, not_not, ← h]
  simp

theorem isolated_eq (hl : p.Linked links) (hids : p.ids.Nodup) :
    p.isolated = ((List.finRange p.nodes.length).filter fun i =>
      (Wiring.ofLinks links).Bare i).map p.table.get := by
  unfold isolated
  conv_lhs => rw [← p.map_table_get, List.filter_map]
  congr 1
  apply List.filter_congr
  intro i _
  rw [Function.comp_apply, decide_eq_decide, Wiring.Bare, ← no_edge_leaves_iff hl hids,
    ← no_edge_ends_iff hl hids]
  exact forall₂_and

theorem firstBranch_eq (hl : p.Linked links) (hids : p.ids.Nodup) :
    p.firstBranch = (Wiring.ofLinks links).firstBranching.map p.table.get := by
  unfold firstBranch Wiring.firstBranching
  conv_lhs => rw [← p.map_table_get, List.find?_map]
  congr 2
  funext i
  have h := targetsOf_idAt hl hids i
  unfold idAt at h
  simp [h, Nat.lt_iff_add_one_le]

end

end Pipeline

/-! ## Who can be reached -/

namespace Wiring

variable {n : Nat} {links : List (Fin n × Fin n)}

theorem mem_roots (i : Fin n) :
    i ∈ (ofLinks links).roots ↔ ∀ j, ¬ (ofLinks links).Leads j i := by
  simp [roots, incoming_ofLinks_eq_zero]

/-- Without a cycle the only start node reaches every node. -/
theorem reaches_all (hac : (ofLinks links).Acyclic) {root : Fin n}
    (hroot : (ofLinks links).roots = [root]) (i : Fin n) :
    ReflTransGen (ofLinks links).Leads root i := by
  obtain ⟨first, hfirst, hway⟩ := hac.exists_first i
  have hmem := (mem_roots first).mpr hfirst
  rw [hroot, List.mem_singleton] at hmem
  exact hmem ▸ hway

theorem mem_wiredRoots (i : Fin n) :
    i ∈ (ofLinks links).wiredRoots ↔
      i ∈ (ofLinks links).roots ∧ (ofLinks links).successors.get i ≠ [] := by
  simp [wiredRoots]

/-- Without a cycle the only start node that leads somewhere reaches the nodes that have an
edge. -/
theorem reaches_iff_not_bare (hac : (ofLinks links).Acyclic) {root : Fin n}
    (hroot : (ofLinks links).wiredRoots = [root]) (i : Fin n) :
    ReflTransGen (ofLinks links).Leads root i ↔ ¬ (ofLinks links).Bare i := by
  have honly : ∀ j, j ∈ (ofLinks links).roots ∧ (ofLinks links).successors.get j ≠ [] ↔
      j = root := by
    intro j
    rw [← mem_wiredRoots, hroot, List.mem_singleton]
  unfold Bare
  rw [incoming_ofLinks_eq_zero]
  constructor
  · rintro hway ⟨hsucc, hin⟩
    -- a node that is reached is the root, where an edge leaves, or has an edge that ends there
    rcases ReflTransGen.cases_tail hway with rfl | ⟨j, _, hji⟩
    · exact ((honly i).mpr rfl).2 hsucc
    · exact hin j hji
  · intro hedge
    obtain ⟨first, hfirst, hway⟩ := hac.exists_first i
    have hsucc : (ofLinks links).successors.get first ≠ [] := by
      rcases ReflTransGen.cases_head hway with rfl | ⟨j, hj, _⟩
      · exact fun h => hedge ⟨h, hfirst⟩
      · exact List.ne_nil_of_mem hj
    exact (honly first).mp ⟨(mem_roots first).mpr hfirst, hsucc⟩ ▸ hway

/-- Of several start nodes all but the one that leads somewhere have no edge. -/
theorem exists_bare (hlen : 2 ≤ (ofLinks links).roots.length) {root : Fin n}
    (hroot : (ofLinks links).wiredRoots = [root]) : ∃ i, (ofLinks links).Bare i := by
  have hnd : (ofLinks links).roots.Nodup := (List.nodup_finRange n).filter _
  have hother : ∃ i ∈ (ofLinks links).roots, i ≠ root := by
    by_contra hall
    have hsub : (ofLinks links).roots ⊆ [root] := by
      intro i hi
      by_contra hne
      exact hall ⟨i, hi, by simpa using hne⟩
    have hle := hnd.length_le_of_subset hsub
    rw [List.length_singleton] at hle
    omega
  obtain ⟨i, hi, hne⟩ := hother
  refine ⟨i, ?_, (incoming_ofLinks_eq_zero links i).mpr ((mem_roots i).mp hi)⟩
  by_contra hsucc
  apply hne
  rw [← List.mem_singleton, ← hroot, mem_wiredRoots]
  exact ⟨hi, hsucc⟩

end Wiring

/-! ## The checks one by one -/

namespace Wiring

variable {n : Nat}

theorem startNode_cases (w : Wiring n) (ids : Fin n → String) :
    (w.roots = [] ∧ w.startNode ids = .error .noRoot) ∨
    (∃ root, w.roots = [root] ∧ w.startNode ids = .ok root) ∨
    (2 ≤ w.roots.length ∧ ∃ root, w.wiredRoots = [root] ∧ w.startNode ids = .ok root) ∨
    (2 ≤ w.roots.length ∧ w.wiredRoots.length ≠ 1 ∧
      w.startNode ids = .error (.multipleRoots (w.roots.map ids))) := by
  unfold startNode
  split
  · rename_i h
    exact Or.inl ⟨h, rfl⟩
  · rename_i root h
    exact Or.inr (Or.inl ⟨root, h, rfl⟩)
  · rename_i hnil hone
    have hlen : 2 ≤ w.roots.length := by
      match hr : w.roots with
      | [] => exact absurd hr hnil
      | [root] => exact absurd hr (hone root)
      | _ :: _ :: _ => simp
    split
    · rename_i root h
      exact Or.inr (Or.inr (Or.inl ⟨hlen, root, h, rfl⟩))
    · rename_i h
      refine Or.inr (Or.inr (Or.inr ⟨hlen, fun hl => ?_, rfl⟩))
      obtain ⟨root, hr⟩ := List.length_eq_one_iff.mp hl
      exact h root hr

theorem length_lt_iff {l : List (Fin n)} (hnd : l.Nodup) : l.length < n ↔ ∃ i, i ∉ l := by
  constructor
  · intro hlt
    by_contra hall
    have hperm : l.Perm (List.finRange n) := by
      rw [List.perm_ext_iff_of_nodup hnd (List.nodup_finRange n)]
      intro i
      simpa using fun hi => hall ⟨i, hi⟩
    have hlen := hperm.length_eq
    rw [List.length_finRange] at hlen
    omega
  · rintro ⟨i, hi⟩
    have hlen := (List.nodup_cons.mpr ⟨hi, hnd⟩).length_le_card
    rw [Fintype.card_fin, List.length_cons] at hlen
    omega

variable {w : Wiring n} {root : Fin n}

theorem cover_eq_ok (hall : ∀ i, ReflTransGen w.Leads root i) (ids : Fin n → String) :
    w.cover ids root = .ok (Traversal.visit w Traversal.nothing root).2 := by
  obtain ⟨hnd, hmem⟩ := Traversal.visit_finished (w := w) root
  unfold cover
  simp only
  rw [if_neg]
  rw [length_lt_iff hnd]
  rintro ⟨i, hi⟩
  exact hi ((hmem i).mpr (hall i))

theorem cover_eq_error {missed : Fin n → Bool}
    (hmissed : ∀ i, missed i = true ↔ ¬ ReflTransGen w.Leads root i)
    (hsome : ∃ i, missed i = true) (ids : Fin n → String) :
    w.cover ids root =
      .error (.disconnected (ids root) (((List.finRange n).filter missed).map ids)) := by
  obtain ⟨hnd, hmem⟩ := Traversal.visit_finished (w := w) root
  have hfilter : (List.finRange n).filter
      (fun i => !(Traversal.visit w Traversal.nothing root).1.get i) =
      (List.finRange n).filter missed := by
    apply List.filter_congr
    intro i _
    rw [Bool.eq_iff_iff, hmissed, ← Traversal.visit_seen]
    simp
  unfold cover
  simp only
  rw [if_pos, hfilter]
  rw [length_lt_iff hnd]
  obtain ⟨i, hi⟩ := hsome
  exact ⟨i, fun h => (hmissed i).mp hi ((hmem i).mp h)⟩

end Wiring

namespace Pipeline

variable {p : Pipeline}

/-- From the only start node that leads somewhere the traversal misses the nodes with no
edge. -/
theorem cover_of_wiredRoots {links : List (Fin p.nodes.length × Fin p.nodes.length)}
    (hl : p.Linked links) (hids : p.ids.Nodup) (hac : (Wiring.ofLinks links).Acyclic)
    (hlen : 2 ≤ (Wiring.ofLinks links).roots.length) {root : Fin p.nodes.length}
    (hroot : (Wiring.ofLinks links).wiredRoots = [root]) :
    p.isolated ≠ [] ∧ (Wiring.ofLinks links).cover p.idAt root =
      .error (.disconnected (p.idAt root) (p.isolated.map (·.id))) := by
  obtain ⟨i, hi⟩ := Wiring.exists_bare hlen hroot
  have hmissed : ∀ i, decide ((Wiring.ofLinks links).Bare i) = true ↔
      ¬ ReflTransGen (Wiring.ofLinks links).Leads root i := by
    intro i
    rw [Wiring.reaches_iff_not_bare hac hroot i, not_not, decide_eq_true_eq]
  rw [isolated_eq hl hids]
  constructor
  · exact List.ne_nil_of_mem (List.mem_map_of_mem
      (List.mem_filter.mpr ⟨List.mem_finRange i, decide_eq_true hi⟩))
  · rw [Wiring.cover_eq_error hmissed ⟨i, decide_eq_true hi⟩, List.map_map]
    rfl

/-- Behind the start node: a branch, or the traversal. -/
theorem check_of_startNode {links : List (Fin p.nodes.length × Fin p.nodes.length)}
    (hl : p.Linked links) (hids : p.ids.Nodup) (hac : (Wiring.ofLinks links).Acyclic)
    {root : Fin p.nodes.length} (hroot : (Wiring.ofLinks links).startNode p.idAt = .ok root) :
    (∃ node, p.firstBranch = some node ∧
      p.check = .error (.branching node.id (p.targetsOf node.id))) ∨
    (p.firstBranch = none ∧
      p.check = ((Wiring.ofLinks links).cover p.idAt root).map p.nodesAt) := by
  have hw := hl.ofPipeline_eq hids
  rw [check_of_ofPipeline hw, Wiring.route_of_no_cycle (Wiring.findCycle_eq_none.mpr hac), hroot,
    firstBranch_eq hl hids]
  unfold Wiring.checkBranches
  rcases (Wiring.ofLinks links).firstBranching with _ | i
  · exact Or.inr ⟨rfl, rfl⟩
  · have htargets : p.targetsOf (p.table.get i).id =
        ((Wiring.ofLinks links).successors.get i).map p.idAt := targetsOf_idAt hl hids i
    exact Or.inl ⟨p.table.get i, rfl, by rw [htargets]; rfl⟩

/-- What a check can say about a pipeline without a cycle, and when it says so. -/
theorem check_cases (hids : p.ids.Nodup) (hends : p.EndsExist) (hac : p.Acyclic) :
    (p.nodes = [] ∧ p.check = .error .noRoot) ∨
    (p.ManyStarts ∧ p.check = .error (.multipleRoots (p.starts.map (·.id)))) ∨
    (¬ p.ManyStarts ∧ ∃ node, p.firstBranch = some node ∧
      p.check = .error (.branching node.id (p.targetsOf node.id))) ∨
    (¬ p.ManyStarts ∧ p.firstBranch = none ∧ 2 ≤ p.starts.length ∧ p.isolated ≠ [] ∧
      ∃ root, p.wiredStarts = [root] ∧
        p.check = .error (.disconnected root.id (p.isolated.map (·.id)))) ∨
    (p.nodes ≠ [] ∧ p.firstBranch = none ∧ p.starts.length = 1 ∧ ∃ order, p.check = .ok order) := by
  obtain ⟨links, hl⟩ := exists_links hends
  have hw := hl.ofPipeline_eq hids
  rw [hl.acyclic_iff hids] at hac
  have hcheck := check_of_ofPipeline hw
  rw [Wiring.route_of_no_cycle (Wiring.findCycle_eq_none.mpr hac)] at hcheck
  unfold ManyStarts
  rw [starts_eq hl hids, wiredStarts_eq hl hids]
  simp only [List.length_map]
  rcases (Wiring.ofLinks links).startNode_cases p.idAt with ⟨hroots, hstart⟩ |
    ⟨root, hroots, hstart⟩ | ⟨hlen, root, hwired, hstart⟩ | ⟨hlen, hwired, hstart⟩
  · -- without a cycle some node has no incoming edge, if there is any node
    refine Or.inl ⟨?_, by rw [hcheck, hstart]; rfl⟩
    by_contra hne
    obtain ⟨first, hfirst, _⟩ := hac.exists_first ⟨0, List.length_pos_iff.mpr hne⟩
    have hmem := (Wiring.mem_roots first).mpr hfirst
    rw [hroots] at hmem
    cases hmem
  · rcases check_of_startNode hl hids hac hstart with ⟨node, hbranch, heq⟩ | ⟨hbranch, heq⟩
    · exact Or.inr (Or.inr (Or.inl ⟨by simp [hroots], node, hbranch, heq⟩))
    · refine Or.inr (Or.inr (Or.inr (Or.inr ⟨?_, hbranch, by simp [hroots], ?_⟩)))
      · exact List.length_pos_iff.mp (Nat.lt_of_le_of_lt (Nat.zero_le _) root.isLt)
      · rw [heq, Wiring.cover_eq_ok (Wiring.reaches_all hac hroots)]
        exact ⟨_, rfl⟩
  · have hmany : ¬ (2 ≤ (Wiring.ofLinks links).roots.length ∧
        (Wiring.ofLinks links).wiredRoots.length ≠ 1) := by
      simp [hwired]
    rcases check_of_startNode hl hids hac hstart with ⟨node, hbranch, heq⟩ | ⟨hbranch, heq⟩
    · exact Or.inr (Or.inr (Or.inl ⟨hmany, node, hbranch, heq⟩))
    · obtain ⟨hisolated, hcover⟩ := cover_of_wiredRoots hl hids hac hlen hwired
      refine Or.inr (Or.inr (Or.inr (Or.inl ⟨hmany, hbranch, hlen, hisolated, ?_⟩)))
      exact ⟨p.table.get root, by rw [hwired]; rfl, by rw [heq, hcover]; rfl⟩
  · refine Or.inr (Or.inl ⟨⟨hlen, hwired⟩, ?_⟩)
    rw [hcheck, hstart, List.map_map]
    rfl

/-! ## The law -/

theorem starts_nil (h : p.nodes = []) : p.starts = [] := by
  unfold starts
  rw [h]
  rfl

theorem firstBranch_nil (h : p.nodes = []) : p.firstBranch = none := by
  unfold firstBranch
  rw [h]
  rfl

/-- A node with an edge is not isolated. -/
theorem ends_not_isolated (e : Edge) (he : e ∈ p.edges) :
    e.source ∉ p.isolated.map (·.id) ∧ e.target ∉ p.isolated.map (·.id) := by
  have hnot : ∀ node ∈ p.isolated, e.source ≠ node.id ∧ e.target ≠ node.id := by
    intro node hnode
    have := (List.mem_filter.mp hnode).2
    rw [decide_eq_true_eq] at this
    exact this e he
  constructor
  · intro hm
    obtain ⟨node, hnode, hid⟩ := List.mem_map.mp hm
    exact (hnot node hnode).1 hid.symm
  · intro hm
    obtain ⟨node, hnode, hid⟩ := List.mem_map.mp hm
    exact (hnot node hnode).2 hid.symm

/-- Why a pipeline without a cycle is refused can be read off its edges. There is no start
node only if there is no node at all. Several start nodes are too many unless just one of them
leads somewhere. Then the first node with two outgoing edges is a branch. What is left is one
line of nodes, and it is refused only for the nodes beside it that have no edge. -/
theorem a_refusal_can_be_read_off_the_edges (p : Pipeline) (hids : p.ids.Nodup)
    (hends : p.EndsExist) (hac : p.Acyclic) :
    (p.check = .error .noRoot ↔ p.nodes = []) ∧
    (∀ roots, p.check = .error (.multipleRoots roots) ↔
      p.ManyStarts ∧ p.starts.map (·.id) = roots) ∧
    (∀ id successors, p.check = .error (.branching id successors) ↔
      ¬ p.ManyStarts ∧ ∃ node, p.firstBranch = some node ∧
        node.id = id ∧ p.targetsOf node.id = successors) ∧
    (∀ root unreachable, p.check = .error (.disconnected root unreachable) ↔
      ¬ p.ManyStarts ∧ p.firstBranch = none ∧ 2 ≤ p.starts.length ∧
        p.wiredStarts.map (·.id) = [root] ∧ p.isolated.map (·.id) = unreachable) ∧
    (∀ root unreachable, p.check = .error (.disconnected root unreachable) →
      unreachable ≠ [] ∧ ∀ e ∈ p.edges, e.source ∉ unreachable ∧ e.target ∉ unreachable) ∧
    ((∃ order, p.check = .ok order) ↔
      p.nodes ≠ [] ∧ ¬ p.ManyStarts ∧ p.firstBranch = none ∧ p.starts.length < 2) := by
  have hmany : p.ManyStarts → 2 ≤ p.starts.length := And.left
  have hsome : p.starts ≠ [] ∨ p.firstBranch ≠ none → p.nodes ≠ [] := by
    rintro (h | h) hnil
    · exact h (starts_nil hnil)
    · exact h (firstBranch_nil hnil)
  rcases check_cases hids hends hac with ⟨hnil, hc⟩ | ⟨hm, hc⟩ | ⟨hm, node, hb, hc⟩ |
    ⟨hm, hb, hlen, hiso, root, hroot, hc⟩ | ⟨hne, hb, hlen, order, hc⟩
  · have hs := starts_nil hnil
    have hb := firstBranch_nil hnil
    simp [hc, hnil, hs, hb, ManyStarts]
  · have hne : p.nodes ≠ [] := hsome (Or.inl fun h => by simpa [h] using hmany hm)
    simp [hc, hm, hne]
  · have hne : p.nodes ≠ [] := hsome (Or.inr (by simp [hb]))
    simp [hc, hm, hne, hb]
  · have hne : p.nodes ≠ [] := hsome (Or.inl fun h => by simp [h] at hlen)
    have hlt : ¬ p.starts.length < 2 := by omega
    refine ⟨by simp [hc, hne], by simp [hc, hm], by simp [hc, hb],
      by simp [hc, hm, hb, hlen, hroot], ?_, by simp [hc, hlt]⟩
    intro _ unreachable heq
    rw [hc, Except.error.injEq, Flaw.disconnected.injEq] at heq
    obtain ⟨_, rfl⟩ := heq
    exact ⟨by simpa using hiso, ends_not_isolated⟩
  · have hm : ¬ p.ManyStarts := fun h => by have := hmany h; omega
    simp [hc, hm, hne, hb, hlen]

/-- A line of three nodes, declared out of order, beside a node with no edge. -/
def stray : Pipeline where
  nodes := [⟨"c", .output "out" false⟩, ⟨"d", .command "sort" .empty⟩, ⟨"a", .input "in"⟩,
    ⟨"b", .command "uniq" .empty⟩]
  edges := [⟨"b", "c", none⟩, ⟨"a", "b", none⟩]

theorem a_stray_node_is_unreachable :
    stray.ids.Nodup ∧ stray.EndsExist ∧ stray.Acyclic ∧
      stray.check = .error (.disconnected "a" ["d"]) := by
  have hids : stray.ids.Nodup := by decide
  have hends : stray.EndsExist := by unfold EndsExist; decide
  have hac : stray.Acyclic := by
    apply acyclic_of_rank fun id => if id = "a" then 0 else if id = "b" then 1 else 2
    rintro a b ⟨e, he, rfl, rfl⟩
    simp only [stray, List.mem_cons, List.not_mem_nil, or_false] at he
    rcases he with rfl | rfl <;> decide
  obtain ⟨_, _, _, hdisconnected, _⟩ := a_refusal_can_be_read_off_the_edges stray hids hends hac
  refine ⟨hids, hends, hac, (hdisconnected "a" ["d"]).mpr ⟨?_, rfl, by decide, rfl, rfl⟩⟩
  unfold ManyStarts
  decide

end Pipeline

end PipeScript
