-- What the check says about any pipeline at all: first the ids, then the ends of the edges,
-- then cycles, then the rest. The variant of the flaw can be read off the ids and the edges,
-- and whatever a flaw names is an id or an end of an edge of the pipeline.
import PipeScript.Proofs.Pipeline.Lines
import PipeScript.Proofs.Pipeline.Picture

namespace PipeScript

/-! ## Ids and ends -/

/-- The wiring of a pipeline, or the repeated id or the missing end that keeps it from having
one. -/
theorem Wiring.ofPipeline_cases (p : Pipeline) :
    (¬ p.ids.Nodup ∧ ∃ id ∈ p.ids, ofPipeline p = .error (.duplicateNode id)) ∨
    (p.ids.Nodup ∧ ¬ p.EndsExist ∧ ∃ edge ∈ p.edges, ∃ missing,
      (missing = edge.source ∨ missing = edge.target) ∧
      ofPipeline p = .error (.danglingEdge edge.source missing)) ∨
    (p.ids.Nodup ∧ p.EndsExist ∧ ∃ w, ofPipeline p = .ok w) := by
  rcases hw : ofPipeline p with flaw | w
  · rcases (ofPipeline_eq_error p flaw).mp hw with ⟨id, hid, rfl⟩ | ⟨hids, edge, hedge, rfl⟩
    · exact Or.inl ⟨hid.not_nodup, id, hid.mem, rfl⟩
    · have hmem := List.mem_of_find?_eq_some hedge
      have hdangling : p.Dangling edge := by simpa using List.find?_some hedge
      exact Or.inr (Or.inl ⟨hids, hdangling.not_endsExist hmem, edge, hmem, _,
        p.missingEnd_cases edge, rfl⟩)
  · obtain ⟨hids, links, hl, _⟩ := (ofPipeline_eq_ok p w).mp hw
    exact Or.inr (Or.inr ⟨hids, hl.endsExist, w, rfl⟩)

/-! ## The variants of flaws -/

namespace Flaw

/-- What a flaw is about, without the ids. -/
inductive Variant where
  | noRoot
  | multipleRoots
  | cycle
  | disconnected
  | branching
  | danglingEdge
  | duplicateNode
  deriving DecidableEq, Repr, Inhabited

def variant : Flaw → Variant
  | .noRoot => .noRoot
  | .multipleRoots _ => .multipleRoots
  | .cycle _ => .cycle
  | .disconnected _ _ => .disconnected
  | .branching _ _ => .branching
  | .danglingEdge _ _ => .danglingEdge
  | .duplicateNode _ => .duplicateNode

/-- The ids that a flaw names, in the order in which its message shows them. -/
def named : Flaw → List String
  | .noRoot => []
  | .multipleRoots roots => roots
  | .cycle path => path
  | .disconnected root unreachable => unreachable ++ [root]
  | .branching node successors => node :: successors
  | .danglingEdge source target => [source, target]
  | .duplicateNode node => [node]

end Flaw

namespace Pipeline

/-- The texts that stand for nodes in a pipeline: the ids and the ends of the edges. -/
def Mentions (p : Pipeline) (id : String) : Prop :=
  id ∈ p.ids ∨ ∃ edge ∈ p.edges, id = edge.source ∨ id = edge.target

/-- The check gives a flaw of a variant, or accepts the pipeline. A flaw names nothing but ids
and ends of edges. -/
def Says (p : Pipeline) : Option Flaw.Variant → Prop
  | none => ∃ order, p.check = .ok order
  | some variant =>
    ∃ flaw, p.check = .error flaw ∧ flaw.variant = variant ∧ ∀ id ∈ flaw.named, p.Mentions id

open Classical in
/-- What is wrong with a pipeline, as its ids and edges tell. -/
noncomputable def verdict (p : Pipeline) : Option Flaw.Variant :=
  if ¬ p.ids.Nodup then some .duplicateNode
  else if ¬ p.EndsExist then some .danglingEdge
  else if ¬ p.Acyclic then some .cycle
  else if p.nodes = [] then some .noRoot
  else if p.ManyStarts then some .multipleRoots
  else if p.firstBranch ≠ none then some .branching
  else if 2 ≤ p.starts.length then some .disconnected
  else none

variable {p : Pipeline}

theorem check_of_ofPipeline_error {flaw : Flaw} (h : Wiring.ofPipeline p = .error flaw) :
    p.check = .error flaw := by
  unfold check
  rw [h]
  rfl

theorem mentions_of_subset {nodes : List Node} (h : nodes ⊆ p.nodes) :
    ∀ id ∈ nodes.map (·.id), p.Mentions id := by
  intro id hid
  obtain ⟨node, hnode, rfl⟩ := List.mem_map.mp hid
  exact Or.inl (List.mem_map_of_mem (h hnode))

theorem mentions_targetsOf (node : String) : ∀ id ∈ p.targetsOf node, p.Mentions id := by
  intro id hid
  obtain ⟨edge, hedge, rfl⟩ := List.mem_map.mp hid
  exact Or.inr ⟨edge, List.mem_of_mem_filter hedge, Or.inr rfl⟩

/-! ## The check says what the verdict is -/

theorem says_repeat (h : ¬ p.ids.Nodup) : p.Says (some .duplicateNode) := by
  rcases Wiring.ofPipeline_cases p with ⟨_, id, hid, hp⟩ | ⟨hids, _⟩ | ⟨hids, _⟩
  · refine ⟨_, check_of_ofPipeline_error hp, rfl, ?_⟩
    simp only [Flaw.named, List.mem_singleton, forall_eq]
    exact Or.inl hid
  · exact absurd hids h
  · exact absurd hids h

theorem says_missing_end (hids : p.ids.Nodup) (h : ¬ p.EndsExist) :
    p.Says (some .danglingEdge) := by
  rcases Wiring.ofPipeline_cases p with ⟨hrepeat, _⟩ | ⟨_, _, edge, hedge, missing, hmissing, hp⟩ |
    ⟨_, hends, _⟩
  · exact absurd hids hrepeat
  · refine ⟨_, check_of_ofPipeline_error hp, rfl, ?_⟩
    simp only [Flaw.named, List.mem_cons, List.not_mem_nil, or_false, forall_eq_or_imp, forall_eq]
    exact ⟨Or.inr ⟨edge, hedge, Or.inl rfl⟩, Or.inr ⟨edge, hedge, hmissing⟩⟩
  · exact absurd hends h

theorem says_cycle (hids : p.ids.Nodup) (hends : p.EndsExist) (h : ¬ p.Acyclic) :
    p.Says (some .cycle) := by
  obtain ⟨links, hl⟩ := exists_links hends
  have hw := hl.ofPipeline_eq hids
  rw [hl.acyclic_iff hids, ← Wiring.findCycle_eq_none] at h
  obtain ⟨way, hway⟩ := Option.ne_none_iff_exists'.mp h
  refine ⟨_, (check_eq_cycle hw _).mpr ⟨way, hway, rfl⟩, rfl, fun id hid => ?_⟩
  obtain ⟨i, _, rfl⟩ := List.mem_map.mp hid
  exact Or.inl (p.idAt_mem i)

theorem says_without_cycle (hids : p.ids.Nodup) (hends : p.EndsExist) (hac : p.Acyclic) :
    p.Says p.verdict := by
  have hstarts : p.starts ⊆ p.nodes := List.filter_subset_self _
  unfold verdict
  rw [if_neg (not_not.mpr hids), if_neg (not_not.mpr hends), if_neg (not_not.mpr hac)]
  rcases check_cases hids hends hac with ⟨hnil, hc⟩ | ⟨hm, hc⟩ | ⟨hm, node, hb, hc⟩ |
    ⟨hm, hb, hlen, _, root, hroot, hc⟩ | ⟨hne, hb, hlen, order, hc⟩
  · rw [if_pos hnil]
    exact ⟨_, hc, rfl, by simp [Flaw.named]⟩
  · have hne : p.nodes ≠ [] := fun hnil => by simpa [starts_nil hnil] using hm.1
    rw [if_neg hne, if_pos hm]
    exact ⟨_, hc, rfl, mentions_of_subset hstarts⟩
  · have hne : p.nodes ≠ [] := fun hnil => by simp [firstBranch_nil hnil] at hb
    rw [if_neg hne, if_neg hm, if_pos (by simp [hb])]
    refine ⟨_, hc, rfl, fun id hid => ?_⟩
    rcases List.mem_cons.mp hid with rfl | hid
    · exact Or.inl (List.mem_map_of_mem (List.mem_of_find?_eq_some hb))
    · exact mentions_targetsOf node.id id hid
  · have hne : p.nodes ≠ [] := fun hnil => by simp [starts_nil hnil] at hlen
    rw [if_neg hne, if_neg hm, if_neg (not_not.mpr hb), if_pos hlen]
    refine ⟨_, hc, rfl, fun id hid => ?_⟩
    rcases List.mem_append.mp hid with hid | hid
    · exact mentions_of_subset (List.filter_subset_self _) id hid
    · have hwired : root ∈ p.wiredStarts := hroot ▸ List.mem_singleton_self root
      rw [List.mem_singleton.mp hid]
      exact Or.inl (List.mem_map_of_mem (hstarts (List.mem_of_mem_filter hwired)))
  · have hm : ¬ p.ManyStarts := fun hm => by have := hm.1; omega
    rw [if_neg hne, if_neg hm, if_neg (not_not.mpr hb), if_neg (by omega)]
    exact ⟨order, hc⟩

/-- The check accepts a pipeline with nothing wrong in it, and otherwise gives a flaw of the
variant that the ids and edges tell. -/
theorem says_verdict (p : Pipeline) : p.Says p.verdict := by
  by_cases hids : p.ids.Nodup
  · by_cases hends : p.EndsExist
    · by_cases hac : p.Acyclic
      · exact says_without_cycle hids hends hac
      · rw [show p.verdict = some .cycle by simp [verdict, hids, hends, hac]]
        exact says_cycle hids hends hac
    · rw [show p.verdict = some .danglingEdge by simp [verdict, hids, hends]]
      exact says_missing_end hids hends
  · rw [show p.verdict = some .duplicateNode by simp [verdict, hids]]
    exact says_repeat hids

theorem verdict_of_check_eq_error {flaw : Flaw} (h : p.check = .error flaw) :
    p.verdict = some flaw.variant ∧ ∀ id ∈ flaw.named, p.Mentions id := by
  have hsays := p.says_verdict
  rcases hv : p.verdict with _ | variant
  · rw [hv] at hsays
    obtain ⟨order, hok⟩ := hsays
    rw [hok] at h
    cases h
  · rw [hv] at hsays
    obtain ⟨flaw', herror, rfl, hnamed⟩ := hsays
    rw [herror] at h
    cases h
    exact ⟨rfl, hnamed⟩

end Pipeline

end PipeScript
