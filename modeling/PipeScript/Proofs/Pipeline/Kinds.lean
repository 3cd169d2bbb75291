-- The check of a pipeline looks at ids and edges, never at what the nodes do: nodes of other
-- kinds under the same ids are refused for the same flaw, or run in the same order.
import Mathlib.Data.List.Find
import Mathlib.Data.List.Forall2
import PipeScript.Proofs.Pipeline.Picture

namespace PipeScript

namespace Wiring

/-- Nodes with the same ids, and links between the same ids, have the same route. -/
theorem route_congr {n m : Nat} {ids : Fin n → String} {ids' : Fin m → String}
    (hids : (List.finRange n).map ids = (List.finRange m).map ids') (hinj : ids.Injective)
    {links : List (Fin n × Fin n)} {links' : List (Fin m × Fin m)}
    (hlinks : links.map (fun l => (ids l.1, ids l.2)) =
      links'.map (fun l => (ids' l.1, ids' l.2))) :
    ((ofLinks links).route ids).map (List.map Fin.val) =
      ((ofLinks links').route ids').map (List.map Fin.val) := by
  have hlength := congrArg List.length hids
  rw [List.length_map, List.length_map, List.length_finRange, List.length_finRange] at hlength
  subst hlength
  have heq : ids = ids' := by
    funext i
    exact List.map_inj_left.mp hids i (List.mem_finRange i)
  subst heq
  have hpair : Function.Injective fun l : Fin n × Fin n => (ids l.1, ids l.2) := by
    intro l l' h
    obtain ⟨hsource, htarget⟩ := Prod.mk.inj h
    exact Prod.ext (hinj hsource) (hinj htarget)
  rw [List.map_injective_iff.mpr hpair hlinks]

end Wiring

namespace Pipeline

variable {p q : Pipeline}

/-- A defect of the ids and edges does not depend on the kinds. -/
theorem ofPipeline_error_congr (hids : p.ids = q.ids) (hedges : p.edges = q.edges) (flaw : Flaw) :
    Wiring.ofPipeline p = .error flaw ↔ Wiring.ofPipeline q = .error flaw := by
  have hdangling : p.edges.find? (p.Dangling ·) = q.edges.find? (q.Dangling ·) := by
    rw [hedges]
    apply List.find?_congr
    intro edge _
    exact decide_eq_decide.mpr (by unfold Dangling; rw [hids])
  simp only [Wiring.ofPipeline_eq_error, hdangling, RepeatsFirst, missingEnd, hids]

theorem nodesAt_forall₂ {R : Node → Node → Prop}
    (h : List.Forall₂ R p.nodes q.nodes) {order : List (Fin p.nodes.length)}
    {order' : List (Fin q.nodes.length)} (horder : order.map Fin.val = order'.map Fin.val) :
    List.Forall₂ R (p.nodesAt order) (q.nodesAt order') := by
  unfold nodesAt
  rw [List.forall₂_map_left_iff, List.forall₂_map_right_iff]
  rw [← List.forall₂_eq_eq_eq, List.forall₂_map_left_iff, List.forall₂_map_right_iff] at horder
  apply horder.imp
  rintro ⟨i, hi⟩ ⟨j, hj⟩ hij
  cases hij
  exact h.get hi hj

/-- Nodes that have the same ids one by one are refused for the same flaw, or run in the same
order. -/
theorem check_forall₂ {R : Node → Node → Prop} (hids : ∀ a b, R a b → a.id = b.id)
    {p q : Pipeline} (h : List.Forall₂ R p.nodes q.nodes) (hedges : p.edges = q.edges) :
    (∀ flaw, p.check = .error flaw → q.check = .error flaw) ∧
    ∀ order, p.check = .ok order →
      ∃ order', q.check = .ok order' ∧ List.Forall₂ R order order' := by
  have hsame : p.ids = q.ids := by
    unfold ids
    rw [← List.forall₂_eq_eq_eq, List.forall₂_map_left_iff, List.forall₂_map_right_iff]
    exact h.imp hids
  rcases hp : Wiring.ofPipeline p with flaw | w
  · have hq := (ofPipeline_error_congr hsame hedges flaw).mp hp
    simp [check, hp, hq, bind, Except.bind]
  rcases hq : Wiring.ofPipeline q with flaw | w'
  · rw [(ofPipeline_error_congr hsame hedges flaw).mpr hq] at hp
    cases hp
  obtain ⟨hnodup, links, hl, rfl⟩ := (Wiring.ofPipeline_eq_ok p w).mp hp
  obtain ⟨_, links', hl', rfl⟩ := (Wiring.ofPipeline_eq_ok q w').mp hq
  have hpairs : p.pairs = q.pairs := by
    unfold pairs
    rw [hedges]
  have hroute := Wiring.route_congr (by rw [map_idAt, map_idAt, hsame]) (idAt_injective hnodup)
    (hl.trans (hpairs.trans hl'.symm))
  rw [check_of_ofPipeline hp, check_of_ofPipeline hq]
  revert hroute
  rcases (Wiring.ofLinks links).route p.idAt with flaw | order
  · rcases (Wiring.ofLinks links').route q.idAt with flaw' | order'
    · intro hroute
      cases hroute
      exact ⟨fun _ hf => hf, fun _ ho => (by cases ho)⟩
    · intro hroute
      cases hroute
  · rcases (Wiring.ofLinks links').route q.idAt with flaw' | order'
    · intro hroute
      cases hroute
    · intro hroute
      refine ⟨fun _ hf => (by cases hf), fun _ ho => ?_⟩
      cases ho
      exact ⟨_, rfl, nodesAt_forall₂ h (Except.ok.inj hroute)⟩

end Pipeline

end PipeScript
