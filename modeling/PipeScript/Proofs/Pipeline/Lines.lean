-- The pipelines that are accepted are the straight lines: there is one order of the nodes
-- whose neighbouring pairs are the edges, and that is the order that the check gives.
import PipeScript.Proofs.Pipeline.Refusals

namespace PipeScript

open Relation (TransGen ReflTransGen)

namespace Pipeline

/-! ## Lists of different items -/

section

variable {α : Type}

theorem map_fst_neighbours (l : List α) : (neighbours l).map (·.1) = l.dropLast := by
  induction l with
  | nil => rfl
  | cons a rest ih =>
    cases rest with
    | nil => rfl
    | cons b rest => simp [ih]

theorem map_snd_neighbours (l : List α) : (neighbours l).map (·.2) = l.tail := by
  unfold neighbours
  rw [List.drop_one]
  apply List.map_snd_zip
  simp

theorem neighbours_nodup {l : List α} (h : l.Nodup) : (neighbours l).Nodup := by
  apply List.Nodup.of_map (f := (·.1))
  rw [map_fst_neighbours]
  exact h.sublist (List.dropLast_sublist l)

/-- Every item but the last one comes before another one. -/
theorem exists_neighbour_behind {l : List α} {a : α} (h : a ∈ l) :
    (∃ b, (a, b) ∈ neighbours l) ∨ l.getLast? = some a := by
  induction l with
  | nil => cases h
  | cons c rest ih =>
    cases rest with
    | nil => exact Or.inr (by simp [List.mem_singleton.mp h])
    | cons b rest =>
      rcases List.mem_cons.mp h with rfl | ha
      · exact Or.inl ⟨b, by simp⟩
      · rcases ih ha with ⟨d, hd⟩ | hlast
        · exact Or.inl ⟨d, by simp [hd]⟩
        · exact Or.inr (by simpa using hlast)

theorem idxOf_lt_of_mem_neighbours [BEq α] [LawfulBEq α] {l : List α} (hnd : l.Nodup) {a b : α}
    (h : (a, b) ∈ neighbours l) : l.idxOf a < l.idxOf b := by
  obtain ⟨k, hk, hpair⟩ := List.getElem_of_mem h
  simp only [neighbours, List.getElem_zip, List.getElem_drop, Prod.mk.injEq] at hpair
  have hlen : 1 + k < l.length := by
    simp only [neighbours, List.length_zip, List.length_drop] at hk
    omega
  rw [← hpair.1, ← hpair.2, hnd.idxOf_getElem, hnd.idxOf_getElem]
  omega

end

/-! ## A line by position -/

section

variable {n : Nat} {links : List (Fin n × Fin n)}

/-- No node has two outgoing edges: no two edges are the same. -/
theorem links_nodup (hone : ∀ i, ((Wiring.ofLinks links).successors.get i).length ≤ 1) :
    links.Nodup := by
  rw [List.nodup_iff_count_le_one]
  intro l
  have hle := hone l.1
  rw [Wiring.successors_ofLinks, List.length_map] at hle
  rw [← List.count_filter (p := fun l' => decide (l'.1 = l.1)) (by simp)]
  exact Nat.le_trans List.count_le_length hle

/-- Without a cycle, and with at most one outgoing edge for each node, a way through all nodes
has all the edges. -/
theorem links_perm_neighbours (hac : (Wiring.ofLinks links).Acyclic)
    (hone : ∀ i, ((Wiring.ofLinks links).successors.get i).length ≤ 1) {order : List (Fin n)}
    (hnd : order.Nodup) (hall : ∀ i, i ∈ order)
    (hchain : order.IsChain fun i j => (Wiring.ofLinks links).successors.get i = [j]) :
    links.Perm (neighbours order) := by
  have hnext := (isChain_iff_neighbours _ _).mp hchain
  rw [List.perm_ext_iff_of_nodup (links_nodup hone) (neighbours_nodup hnd)]
  rintro ⟨i, j⟩
  rw [← Wiring.leads_ofLinks]
  constructor
  · intro hij
    rcases exists_neighbour_behind (hall i) with ⟨k, hk⟩ | hlast
    · have hik : j ∈ [k] := hnext (i, k) hk ▸ hij
      rw [List.mem_singleton.mp hik]
      exact hk
    · -- an edge from the last node would close a cycle
      exfalso
      have hback : ReflTransGen (Wiring.ofLinks links).Leads j i := by
        apply hchain.backwards_induction fun k => ReflTransGen (Wiring.ofLinks links).Leads k i
        · intro k m hkm hway
          refine .head ?_ hway
          show m ∈ (Wiring.ofLinks links).successors.get k
          rw [hkm]
          exact List.mem_singleton_self m
        · intro hne
          rw [List.getLast?_eq_getLast_of_ne_nil hne] at hlast
          rw [Option.some.inj hlast]
        · exact hall j
      exact hac i (TransGen.head' hij hback)
  · intro hij
    show j ∈ (Wiring.ofLinks links).successors.get i
    rw [hnext (i, j) hij]
    exact List.mem_singleton_self j

end

end Pipeline

/-! ## The pipelines that are accepted -/

namespace Wiring

variable {n : Nat} {w : Wiring n} {ids : Fin n → String} {positions : List (Fin n)}

theorem route_eq_ok (h : w.route ids = .ok positions) :
    w.findCycle = none ∧ ∃ root, w.firstBranching = none ∧ w.cover ids root = .ok positions := by
  rcases hf : w.findCycle with _ | path
  · rw [route_of_no_cycle hf] at h
    rcases hs : w.startNode ids with flaw | root
    · simp [hs, bind, Except.bind] at h
    · rcases hb : w.firstBranching with _ | i
      · refine ⟨rfl, root, rfl, ?_⟩
        simpa [hs, checkBranches, hb, bind, Except.bind] using h
      · simp [hs, checkBranches, hb, bind, Except.bind] at h
  · unfold route at h
    rw [hf] at h
    cases h

theorem cover_ok {root : Fin n} (h : w.cover ids root = .ok positions) :
    positions = (Traversal.visit w Traversal.nothing root).2 ∧
    ∀ i, i ∈ (Traversal.visit w Traversal.nothing root).2 := by
  unfold cover at h
  simp only at h
  split at h
  · cases h
  · rename_i hlen
    rw [length_lt_iff (Traversal.visit_finished root).1] at hlen
    cases h
    exact ⟨rfl, by simpa using hlen⟩

end Wiring

namespace Pipeline

variable {p : Pipeline}

theorem check_eq_ok {order : List Node} (h : p.check = .ok order) :
    ∃ (links : List (Fin p.nodes.length × Fin p.nodes.length)) (root : Fin p.nodes.length)
      (positions : List (Fin p.nodes.length)),
      p.ids.Nodup ∧ p.Linked links ∧ (Wiring.ofLinks links).Acyclic ∧
      (Wiring.ofLinks links).firstBranching = none ∧
      (Wiring.ofLinks links).cover p.idAt root = .ok positions ∧ order = p.nodesAt positions := by
  rcases hw : Wiring.ofPipeline p with flaw | w
  · simp [check, hw, bind, Except.bind] at h
  · obtain ⟨hids, links, hl, rfl⟩ := (Wiring.ofPipeline_eq_ok p w).mp hw
    rw [check_of_ofPipeline hw] at h
    rcases hr : (Wiring.ofLinks links).route p.idAt with flaw | positions
    · rw [hr] at h
      cases h
    · rw [hr] at h
      cases h
      obtain ⟨hf, root, hb, hcover⟩ := Wiring.route_eq_ok hr
      exact ⟨links, root, positions, hids, hl, Wiring.findCycle_eq_none.mp hf, hb, hcover, rfl⟩

/-- What is accepted is a line. -/
theorem line_of_check {order : List Node} (h : p.check = .ok order) :
    p.ids.Nodup ∧ p.nodes ≠ [] ∧ order.Perm p.nodes ∧
    p.pairs.Perm (neighbours (order.map (·.id))) := by
  obtain ⟨links, root, positions, hids, hl, hac, hbranch, hcover, rfl⟩ := check_eq_ok h
  obtain ⟨rfl, hall⟩ := Wiring.cover_ok hcover
  have hone : ∀ i, ((Wiring.ofLinks links).successors.get i).length ≤ 1 := by
    intro i
    have := List.find?_eq_none.mp hbranch i (List.mem_finRange i)
    simpa using this
  have hnd := (Traversal.visit_finished (w := .ofLinks links) root).1
  obtain ⟨new, heq, hchain, _⟩ :=
    (Traversal.visit_visits (w := .ofLinks links) Traversal.nothing root).straight hone (by simp)
  have hnew : (Traversal.visit (.ofLinks links) Traversal.nothing root).2 = new := by
    simpa [Traversal.nothing] using heq
  rw [hnew] at hnd hall ⊢
  refine ⟨hids, ?_, ?_, ?_⟩
  · exact List.length_pos_iff.mp (Nat.lt_of_le_of_lt (Nat.zero_le _) root.isLt)
  · exact map_table_get_perm hnd hall
  · have hids : (p.nodesAt new).map (·.id) = new.map p.idAt := by
      unfold nodesAt
      rw [List.map_map]
      rfl
    rw [hids, neighbours_map, ← hl]
    exact (links_perm_neighbours hac hone hnd hall hchain).map _

/-! ## Every line is accepted -/

theorem map_source (p : Pipeline) : p.edges.map (·.source) = p.pairs.map (·.1) := by
  unfold pairs
  rw [List.map_map]
  rfl

theorem map_target (p : Pipeline) : p.edges.map (·.target) = p.pairs.map (·.2) := by
  unfold pairs
  rw [List.map_map]
  rfl

section

variable {line : List String} (hnd : line.Nodup) (hpairs : p.pairs.Perm (neighbours line))

include hpairs

theorem leads_iff_of_line (a b : String) : p.Leads a b ↔ (a, b) ∈ neighbours line := by
  rw [leads_iff_mem_pairs]
  exact hpairs.mem_iff

theorem head_reaches_all (hne : line ≠ []) :
    ∀ id ∈ line, ReflTransGen p.Leads (line.head hne) id := by
  have hchain : line.IsChain p.Leads := by
    rw [isChain_iff_neighbours]
    rintro ⟨a, b⟩ hab
    exact (leads_iff_of_line hpairs a b).mpr hab
  apply hchain.induction fun id => ReflTransGen p.Leads (line.head hne) id
  · intro a b hab hway
    exact hway.tail hab
  · intro _
    exact .refl

theorem first_reaches_all (hne : line ≠ []) :
    ∃ first ∈ line, ∀ id ∈ line, ReflTransGen p.Leads first id :=
  ⟨line.head hne, List.head_mem hne, head_reaches_all hpairs hne⟩

include hnd

theorem sources_nodup : (p.edges.map (·.source)).Nodup := by
  rw [map_source, (hpairs.map _).nodup_iff, map_fst_neighbours]
  exact hnd.sublist (List.dropLast_sublist line)

theorem targets_nodup : (p.edges.map (·.target)).Nodup := by
  rw [map_target, (hpairs.map _).nodup_iff, map_snd_neighbours]
  exact hnd.sublist (List.tail_sublist line)

theorem line_acyclic : p.Acyclic := by
  apply acyclic_of_rank line.idxOf
  intro a b hab
  exact idxOf_lt_of_mem_neighbours hnd ((leads_iff_of_line hpairs a b).mp hab)

theorem line_firstBranch : p.firstBranch = none := by
  unfold firstBranch
  rw [List.find?_eq_none]
  intro node _
  have hcount := List.nodup_iff_count_le_one.mp (sources_nodup hnd hpairs) node.id
  rw [List.count, List.countP_map, List.countP_eq_length_filter] at hcount
  simp only [targetsOf, List.length_map, decide_eq_true_eq]
  have hsame : (p.edges.filter fun e => e.source = node.id) =
      p.edges.filter ((· == node.id) ∘ (·.source)) := by
    apply List.filter_congr
    intro e _
    exact (beq_eq_decide _ _).symm
  rw [hsame]
  omega

end

/-- Only the first node of a line can be a start node. -/
theorem line_starts {line : List String} (hids : p.ids.Nodup) (hline : line.Perm p.ids)
    (hpairs : p.pairs.Perm (neighbours line)) : p.starts.length ≤ 1 := by
  have hhead : p.starts.map (·.id) ⊆ line.head?.toList := by
    intro id hid
    rw [Option.mem_toList]
    obtain ⟨node, hnode, rfl⟩ := List.mem_map.mp hid
    obtain ⟨hmem, hno⟩ := List.mem_filter.mp hnode
    rw [decide_eq_true_eq] at hno
    have hin : node.id ∈ line := hline.mem_iff.mpr (List.mem_map_of_mem hmem)
    cases line with
    | nil => cases hin
    | cons first rest =>
      rcases List.mem_cons.mp hin with h | h
      · simp [h]
      · obtain ⟨a, ha⟩ := exists_neighbour_before (l := first :: rest) h
        obtain ⟨e, he, _, ht⟩ := (leads_iff_of_line hpairs a node.id).mpr ha
        exact absurd ht (hno e he)
  have hnd : (p.starts.map (·.id)).Nodup :=
    hids.sublist (List.filter_sublist.map _)
  have hle := hnd.length_le_of_subset hhead
  rw [List.length_map] at hle
  exact Nat.le_trans hle (by cases line.head? <;> simp)

theorem line_endsExist {line : List String} (hline : line.Perm p.ids)
    (hpairs : p.pairs.Perm (neighbours line)) : p.EndsExist := by
  intro e he
  have hmem := (leads_iff_of_line hpairs e.source e.target).mp ⟨e, he, rfl, rfl⟩
  obtain ⟨hs, ht⟩ := mem_of_mem_neighbours hmem
  exact ⟨hline.mem_iff.mp hs, hline.mem_iff.mp (List.mem_of_mem_tail ht)⟩

/-- Nodes of a pipeline are known by their ids. -/
theorem eq_of_map_id {order order' : List Node} (hids : p.ids.Nodup) (h : order ⊆ p.nodes)
    (h' : order' ⊆ p.nodes) (heq : order.map (·.id) = order'.map (·.id)) : order = order' := by
  have hlen : order.length = order'.length := by
    simpa using congrArg List.length heq
  apply List.ext_getElem hlen
  intro k hk hk'
  apply List.inj_on_of_nodup_map hids (h (List.getElem_mem hk)) (h' (List.getElem_mem hk'))
  have := List.getElem_of_eq heq (by simpa using hk)
  simpa using this

/-- A line is accepted. -/
theorem check_of_line {order : List Node} (hids : p.ids.Nodup) (hne : p.nodes ≠ [])
    (hperm : order.Perm p.nodes) (hpairs : p.pairs.Perm (neighbours (order.map (·.id)))) :
    p.check = .ok order := by
  have hline : (order.map (·.id)).Perm p.ids := hperm.map _
  have hnd := hline.nodup_iff.mpr hids
  have hstarts := line_starts hids hline hpairs
  have hbranch := line_firstBranch hnd hpairs
  rcases check_cases hids (line_endsExist hline hpairs) (line_acyclic hnd hpairs) with
    ⟨hnil, _⟩ | ⟨hmany, _⟩ | ⟨_, node, hb, _⟩ | ⟨_, _, hlen, _⟩ | ⟨_, _, _, order', hc⟩
  · exact absurd hnil hne
  · have := hmany.1
    omega
  · rw [hbranch] at hb
    cases hb
  · omega
  · -- the order that is given is a line too, and there is only one
    obtain ⟨_, _, hperm', hpairs'⟩ := line_of_check hc
    have hboth : (order.map (·.id)).Perm (order'.map (·.id)) := hline.trans (hperm'.map _).symm
    have heq := eq_of_neighbours_perm hnd hboth (hpairs.symm.trans hpairs')
    rw [hc, eq_of_map_id hids hperm.subset hperm'.subset heq]

/-! ## The law -/

/-- The check accepts the pipelines whose nodes can be put in one line, in whatever order they
and the edges are declared, and gives that line. So nothing is accepted that has an edge
without an end, two edges that leave or that enter one node, an edge from a node to itself, or
nodes that the first one does not reach. -/
theorem exactly_the_lines_are_accepted (p : Pipeline) (order : List Node) :
    (p.check = .ok order ↔
      p.ids.Nodup ∧ p.nodes ≠ [] ∧ order.Perm p.nodes ∧
      p.pairs.Perm (neighbours (order.map (·.id)))) ∧
    (p.check = .ok order →
      p.EndsExist ∧ (p.edges.map (·.source)).Nodup ∧ (p.edges.map (·.target)).Nodup ∧
      (∀ e ∈ p.edges, e.source ≠ e.target) ∧
      ∃ first ∈ p.ids, ∀ id ∈ p.ids, ReflTransGen p.Leads first id) := by
  refine ⟨⟨line_of_check, fun ⟨hids, hne, hperm, hpairs⟩ =>
    check_of_line hids hne hperm hpairs⟩, fun h => ?_⟩
  obtain ⟨hids, hne, hperm, hpairs⟩ := line_of_check h
  have hline : (order.map (·.id)).Perm p.ids := hperm.map _
  have hnd := hline.nodup_iff.mpr hids
  refine ⟨line_endsExist hline hpairs, sources_nodup hnd hpairs, targets_nodup hnd hpairs, ?_, ?_⟩
  · intro e he hloop
    exact line_acyclic hnd hpairs e.source (TransGen.single ⟨e, he, rfl, hloop.symm⟩)
  · have hsome : order.map (·.id) ≠ [] := by
      intro hnil
      rw [List.map_eq_nil_iff] at hnil
      subst hnil
      exact hne hperm.nil_eq.symm
    obtain ⟨first, hfirst, hway⟩ := first_reaches_all hpairs hsome
    exact ⟨first, hline.mem_iff.mp hfirst, fun id hid => hway id (hline.mem_iff.mpr hid)⟩

/-- A line with its nodes and its edges declared from the end. -/
def backwards : Pipeline where
  nodes := [⟨"c", .output "out" false⟩, ⟨"b", .command "sort" .empty⟩, ⟨"a", .input "in"⟩]
  edges := [⟨"b", "c", none⟩, ⟨"a", "b", some "x"⟩]

theorem a_line_declared_backwards_is_accepted :
    backwards.check = .ok backwards.nodes.reverse := by
  apply (exactly_the_lines_are_accepted backwards _).1.mpr
  exact ⟨by decide, by simp [backwards], List.reverse_perm _, by decide⟩

end Pipeline

end PipeScript
