-- The order in which nodes and edges are declared does not matter, nor do the handles of the
-- edges: a pipeline that is rearranged compiles to the same script, or is refused for a flaw
-- of the same variant.
import PipeScript.Compiler
import PipeScript.Proofs.Pipeline.Verdicts

namespace PipeScript

open Script (Settings)

namespace Pipeline

/-- The same nodes and the same connections, declared in any order and with any handles. -/
structure Rearranges (p q : Pipeline) : Prop where
  nodes : p.nodes.Perm q.nodes
  pairs : p.pairs.Perm q.pairs

/-! ## What a rearrangement keeps -/

namespace Rearranges

variable {p q : Pipeline}

theorem symm (h : p.Rearranges q) : q.Rearranges p := ⟨h.nodes.symm, h.pairs.symm⟩

theorem ids (h : p.Rearranges q) : p.ids.Perm q.ids := h.nodes.map _

theorem leads_eq (h : p.Rearranges q) : p.Leads = q.Leads := by
  funext a b
  rw [leads_iff_mem_pairs, leads_iff_mem_pairs, h.pairs.mem_iff]

theorem endsExist (h : p.Rearranges q) (hends : p.EndsExist) : q.EndsExist := by
  intro e he
  have hq : q.Leads e.source e.target := ⟨e, he, rfl, rfl⟩
  rw [← h.leads_eq] at hq
  obtain ⟨e', he', hs, ht⟩ := hq
  obtain ⟨hsource, htarget⟩ := hends e' he'
  exact ⟨h.ids.mem_iff.mp (hs ▸ hsource), h.ids.mem_iff.mp (ht ▸ htarget)⟩

theorem acyclic_iff (h : p.Rearranges q) : p.Acyclic ↔ q.Acyclic := by
  unfold Acyclic
  rw [h.leads_eq]

theorem edge_leaves_iff (h : p.Rearranges q) (id : String) :
    (∃ e ∈ p.edges, e.source = id) ↔ ∃ e ∈ q.edges, e.source = id := by
  have hsource : ∀ r : Pipeline, (∃ e ∈ r.edges, e.source = id) ↔ ∃ b, r.Leads id b := by
    intro r
    constructor
    · rintro ⟨e, he, hs⟩
      exact ⟨e.target, e, he, hs, rfl⟩
    · rintro ⟨b, e, he, hs, _⟩
      exact ⟨e, he, hs⟩
  rw [hsource, hsource, h.leads_eq]

theorem no_edge_ends_iff (h : p.Rearranges q) (id : String) :
    (∀ e ∈ p.edges, e.target ≠ id) ↔ ∀ e ∈ q.edges, e.target ≠ id := by
  have htarget : ∀ r : Pipeline, (∀ e ∈ r.edges, e.target ≠ id) ↔ ∀ a, ¬ r.Leads a id := by
    intro r
    constructor
    · rintro hno a ⟨e, he, _, ht⟩
      exact hno e he ht
    · intro hno e he ht
      exact hno e.source ⟨e, he, rfl, ht⟩
  rw [htarget, htarget, h.leads_eq]

theorem starts (h : p.Rearranges q) : p.starts.Perm q.starts := by
  have hsame : p.starts = p.nodes.filter fun node => ∀ e ∈ q.edges, e.target ≠ node.id := by
    unfold Pipeline.starts
    apply List.filter_congr
    intro node _
    exact decide_eq_decide.mpr (h.no_edge_ends_iff node.id)
  rw [hsame]
  exact h.nodes.filter _

theorem wiredStarts (h : p.Rearranges q) : p.wiredStarts.Perm q.wiredStarts := by
  have hsame : p.wiredStarts = p.starts.filter fun node => ∃ e ∈ q.edges, e.source = node.id := by
    unfold Pipeline.wiredStarts
    apply List.filter_congr
    intro node _
    exact decide_eq_decide.mpr (h.edge_leaves_iff node.id)
  rw [hsame]
  exact h.starts.filter _

theorem manyStarts_iff (h : p.Rearranges q) : p.ManyStarts ↔ q.ManyStarts := by
  unfold ManyStarts
  rw [h.starts.length_eq, h.wiredStarts.length_eq]

theorem length_targetsOf (h : p.Rearranges q) (id : String) :
    (p.targetsOf id).length = (q.targetsOf id).length := by
  have hcount : ∀ r : Pipeline, (r.targetsOf id).length = r.pairs.countP (·.1 = id) := by
    intro r
    unfold targetsOf Pipeline.pairs
    rw [List.length_map, List.countP_map, List.countP_eq_length_filter]
    rfl
  rw [hcount, hcount, h.pairs.countP_eq]

theorem firstBranch_eq_none (h : p.Rearranges q) (hp : p.firstBranch = none) :
    q.firstBranch = none := by
  unfold firstBranch at hp ⊢
  rw [List.find?_eq_none] at hp ⊢
  intro node hnode
  rw [← h.length_targetsOf node.id]
  exact hp node (h.nodes.mem_iff.mpr hnode)

theorem verdict_eq (h : p.Rearranges q) : p.verdict = q.verdict := by
  have hids : p.ids.Nodup ↔ q.ids.Nodup := h.ids.nodup_iff
  have hends : p.EndsExist = q.EndsExist := propext ⟨h.endsExist, h.symm.endsExist⟩
  have hac : p.Acyclic = q.Acyclic := propext h.acyclic_iff
  have hmany : p.ManyStarts = q.ManyStarts := propext h.manyStarts_iff
  have hnil : p.nodes = [] ↔ q.nodes = [] := by
    rw [← List.length_eq_zero_iff, h.nodes.length_eq, List.length_eq_zero_iff]
  have hbranch : p.firstBranch = none ↔ q.firstBranch = none :=
    ⟨h.firstBranch_eq_none, h.symm.firstBranch_eq_none⟩
  unfold verdict
  rw [hends, hac, hmany]
  simp only [hids, hnil, ne_eq, hbranch, h.starts.length_eq]

/-- A pipeline that is accepted is accepted in any arrangement, and its nodes run in the same
order. -/
theorem check_eq_ok (h : p.Rearranges q) {order : List Node} (hp : p.check = .ok order) :
    q.check = .ok order := by
  obtain ⟨hids, hne, hperm, hpairs⟩ := line_of_check hp
  apply check_of_line (h.ids.nodup_iff.mp hids) _ (hperm.trans h.nodes) (h.pairs.symm.trans hpairs)
  intro hnil
  have hp : p.nodes.Perm [] := hnil ▸ h.nodes
  exact hne hp.eq_nil

theorem check_eq_error (h : p.Rearranges q) {flaw : Flaw} (hp : p.check = .error flaw) :
    ∃ flaw', q.check = .error flaw' ∧ flaw'.variant = flaw.variant := by
  have hsays := q.says_verdict
  rw [← h.verdict_eq, (verdict_of_check_eq_error hp).1] at hsays
  obtain ⟨flaw', hq, hvariant, _⟩ := hsays
  exact ⟨flaw', hq, hvariant⟩

end Rearranges

end Pipeline

/-! ## The law -/

namespace Compiler

/-- Whatever commands a compiler knows and however its scripts begin, a pipeline that compiles
gives the same text, order and warnings in any arrangement; and one that is refused is refused
for a flaw of the same variant. -/
theorem the_order_of_declaration_does_not_matter (c : Compiler) (p q : Pipeline)
    (settings : Settings) (h : p.Rearranges q) :
    (∀ script, c.tryCompile p settings = .ok script → c.tryCompile q settings = .ok script) ∧
    (∀ flaw, c.tryCompile p settings = .error flaw →
      ∃ flaw', c.tryCompile q settings = .error flaw' ∧ flaw'.variant = flaw.variant) := by
  unfold tryCompile
  rcases hp : p.check with flaw | order
  · obtain ⟨flaw', hq, hvariant⟩ := h.check_eq_error hp
    refine ⟨fun _ hs => (by cases hs), fun _ hf => ?_⟩
    cases hf
    exact ⟨flaw', by rw [hq]; rfl, hvariant⟩
  · rw [h.check_eq_ok hp]
    exact ⟨fun _ hs => hs, fun _ hf => (by cases hf)⟩

/-- A line of three nodes, declared from the start to the end. -/
def inOrder : Pipeline :=
  .chain [⟨"a", .input "in"⟩, ⟨"b", .command "sort" .empty⟩, ⟨"c", .output "out" false⟩]

/-- The same line with the middle first, the edges from the end, and handles. -/
def shuffled : Pipeline where
  nodes := [⟨"b", .command "sort" .empty⟩, ⟨"a", .input "in"⟩, ⟨"c", .output "out" false⟩]
  edges := [⟨"b", "c", some "then"⟩, ⟨"a", "b", some "body"⟩]

theorem a_shuffled_line_compiles_to_the_same_script :
    inOrder.Rearranges shuffled ∧
      ∃ script, default.tryCompile inOrder .default = .ok script ∧
        default.tryCompile shuffled .default = .ok script := by
  have hsame : inOrder.Rearranges shuffled := ⟨List.Perm.swap .., List.Perm.swap ..⟩
  have hline : inOrder.check = .ok inOrder.nodes :=
    Pipeline.check_of_line (by decide) (by simp [inOrder, Pipeline.chain]) (.refl _) (.refl _)
  obtain ⟨hok, _⟩ := the_order_of_declaration_does_not_matter default _ _ .default hsame
  have hscript : default.tryCompile inOrder .default =
      .ok (default.assemble inOrder.nodes .default) := by
    unfold tryCompile
    rw [hline]
    rfl
  exact ⟨hsame, _, hscript, hok _ hscript⟩

end Compiler

end PipeScript
