-- The wiring of a pipeline is an exact picture of its edges, or the first defect of its ids and
-- edges. Ids come before edges: an id that is used a second time is reported whatever the edges
-- are, and of several defects of one sort the first one is reported.
import PipeScript.Proofs.Pipeline.Refusals

namespace PipeScript

/-! ## Defects -/

namespace Pipeline

/-- Of all ids it is the first one to be used a second time. -/
def RepeatsFirst (p : Pipeline) (id : String) : Prop :=
  ∃ before after, p.ids = before ++ id :: after ∧ before.Nodup ∧ id ∈ before

/-- An end of the edge is no node. -/
def Dangling (p : Pipeline) (edge : Edge) : Prop := edge.source ∉ p.ids ∨ edge.target ∉ p.ids

instance (p : Pipeline) (edge : Edge) : Decidable (p.Dangling edge) :=
  inferInstanceAs (Decidable (edge.source ∉ p.ids ∨ edge.target ∉ p.ids))

/-- The end that is reported as missing: the source, unless it is a node. -/
def missingEnd (p : Pipeline) (edge : Edge) : String :=
  if edge.source ∈ p.ids then edge.target else edge.source

theorem missingEnd_cases (p : Pipeline) (edge : Edge) :
    p.missingEnd edge = edge.source ∨ p.missingEnd edge = edge.target := by
  unfold missingEnd
  split
  · exact Or.inr rfl
  · exact Or.inl rfl

theorem Dangling.not_endsExist {p : Pipeline} {edge : Edge} (h : p.Dangling edge)
    (hmem : edge ∈ p.edges) : ¬ p.EndsExist := by
  intro hends
  rcases h with hsource | htarget
  · exact hsource (hends edge hmem).1
  · exact htarget (hends edge hmem).2

theorem RepeatsFirst.mem {p : Pipeline} {id : String} (h : p.RepeatsFirst id) : id ∈ p.ids := by
  obtain ⟨before, after, hids, _, hmem⟩ := h
  rw [hids]
  exact List.mem_append_left _ hmem

theorem RepeatsFirst.not_nodup {p : Pipeline} {id : String} (h : p.RepeatsFirst id) :
    ¬ p.ids.Nodup := by
  obtain ⟨before, after, hids, _, hmem⟩ := h
  rw [hids, List.nodup_append]
  rintro ⟨_, _, hne⟩
  exact hne id hmem id List.mem_cons_self rfl

end Pipeline

/-! ## The first id that repeats -/

theorem firstRepeat_eq_some (seen : Std.HashSet String) (ids : List String) (id : String) :
    firstRepeat seen ids = some id ↔
      ∃ before after, ids = before ++ id :: after ∧ before.Nodup ∧
        (∀ other ∈ before, other ∉ seen) ∧ (id ∈ seen ∨ id ∈ before) := by
  induction ids generalizing seen with
  | nil => simp [firstRepeat]
  | cons first rest ih =>
    unfold firstRepeat
    by_cases h : first ∈ seen
    · rw [if_pos (by simpa using h), Option.some.injEq]
      constructor
      · rintro rfl
        exact ⟨[], rest, rfl, List.nodup_nil, by simp, Or.inl h⟩
      · rintro ⟨before, after, heq, _, hnew, _⟩
        -- nothing can stand before an id that has been seen
        cases before with
        | nil => exact (List.cons.inj heq).1
        | cons other before =>
          obtain ⟨rfl, _⟩ := List.cons.inj heq
          exact absurd h (hnew first List.mem_cons_self)
    · rw [if_neg (by simpa using h), ih]
      simp only [Std.HashSet.mem_insert, beq_iff_eq, not_or]
      constructor
      · rintro ⟨before, after, rfl, hnd, hnew, hid⟩
        have hfirst : first ∉ before := fun hm => (hnew first hm).1 rfl
        refine ⟨first :: before, after, rfl, List.nodup_cons.mpr ⟨hfirst, hnd⟩, ?_, ?_⟩
        · rw [List.forall_mem_cons]
          exact ⟨h, fun other hm => (hnew other hm).2⟩
        · rcases hid with (rfl | hs) | hm
          · exact Or.inr List.mem_cons_self
          · exact Or.inl hs
          · exact Or.inr (List.mem_cons_of_mem first hm)
      · rintro ⟨before, after, heq, hnd, hnew, hid⟩
        cases before with
        | nil =>
          obtain ⟨rfl, _⟩ := List.cons.inj heq
          simp [h] at hid
        | cons other before =>
          obtain ⟨rfl, rfl⟩ := List.cons.inj heq
          obtain ⟨hfirst, hnd⟩ := List.nodup_cons.mp hnd
          rw [List.forall_mem_cons] at hnew
          refine ⟨before, after, rfl, hnd, fun x hx => ⟨?_, hnew.2 x hx⟩, ?_⟩
          · rintro rfl
            exact hfirst hx
          · rcases hid with hs | hm
            · exact Or.inl (Or.inr hs)
            · rcases List.mem_cons.mp hm with rfl | hm
              · exact Or.inl (Or.inl rfl)
              · exact Or.inr hm

theorem Pipeline.repeatsFirst_iff (p : Pipeline) (id : String) :
    firstRepeat ∅ p.ids = some id ↔ p.RepeatsFirst id := by
  rw [firstRepeat_eq_some]
  simp [RepeatsFirst]

/-! ## The first edge without an end -/

namespace Wiring

theorem positions_eq_none {p : Pipeline} (h : p.ids.Nodup) (id : String) :
    p.positions[id]? = none ↔ id ∉ p.ids := by
  rw [Option.eq_none_iff_forall_ne_some]
  simp only [ne_eq, p.positions_get h]
  constructor
  · intro hnone hid
    obtain ⟨i, hi⟩ := Pipeline.exists_idAt hid
    exact hnone i hi
  · rintro hid i rfl
    exact hid (p.idAt_mem i)

theorem link_eq_error {p : Pipeline} (h : p.ids.Nodup) (edge : Edge) (flaw : Flaw) :
    link p.positions edge = .error flaw ↔
      p.Dangling edge ∧ flaw = .danglingEdge edge.source (p.missingEnd edge) := by
  have hsource := positions_eq_none h edge.source
  have htarget := positions_eq_none h edge.target
  unfold link Pipeline.Dangling Pipeline.missingEnd
  split
  · rename_i hs ht
    have hs : edge.source ∈ p.ids := by simpa [hs] using hsource
    have ht : edge.target ∈ p.ids := by simpa [ht] using htarget
    simp [hs, ht]
  · rename_i hs
    simp [hsource.mp hs, eq_comm]
  · rename_i hs ht
    have hs : edge.source ∈ p.ids := by simpa [hs] using hsource
    simp [hs, htarget.mp ht, eq_comm]

/-- Of several edges without an end the first one is reported. -/
theorem mapM_link_eq_error {p : Pipeline} (h : p.ids.Nodup) (edges : List Edge) (flaw : Flaw) :
    edges.mapM (link p.positions) = .error flaw ↔
      ∃ edge, edges.find? (p.Dangling ·) = some edge ∧
        flaw = .danglingEdge edge.source (p.missingEnd edge) := by
  induction edges with
  | nil => simp [pure, Except.pure]
  | cons edge rest ih =>
    have hlink := link_eq_error h edge
    rw [List.mapM_cons, List.find?_cons]
    by_cases hd : p.Dangling edge
    · rw [(hlink _).mpr ⟨hd, rfl⟩]
      simp [hd, bind, Except.bind, eq_comm]
    · rcases hl : link p.positions edge with flaw' | l
      · exact absurd ((hlink flaw').mp hl).1 hd
      · simp only [hd, decide_false, ← ih]
        rcases rest.mapM (link p.positions) with flaw' | links
        · simp [bind, Except.bind]
        · simp [bind, Except.bind, pure, Except.pure]

/-- The wiring is refused for the first id that is used a second time, and where there is none,
for the first edge without an end. -/
theorem ofPipeline_eq_error (p : Pipeline) (flaw : Flaw) :
    ofPipeline p = .error flaw ↔
      (∃ id, p.RepeatsFirst id ∧ flaw = .duplicateNode id) ∨
      (p.ids.Nodup ∧ ∃ edge, p.edges.find? (p.Dangling ·) = some edge ∧
        flaw = .danglingEdge edge.source (p.missingEnd edge)) := by
  have hrepeat := firstRepeat_eq_none ∅ p.ids
  unfold ofPipeline
  rw [show p.nodes.map (·.id) = p.ids from rfl]
  simp only [← p.repeatsFirst_iff]
  rcases hr : firstRepeat ∅ p.ids with _ | id
  · have hids : p.ids.Nodup := (hrepeat.mp hr).1
    simp only [hids, true_and, ← mapM_link_eq_error hids]
    rcases p.edges.mapM (link p.positions) with flaw' | links
    · simp [bind, Except.bind]
    · simp [bind, Except.bind, pure, Except.pure]
  · have hids : ¬ p.ids.Nodup := ((p.repeatsFirst_iff id).mp hr).not_nodup
    simp [hids, eq_comm]

end Wiring

/-! ## The tables of a wiring -/

namespace Pipeline

variable {p : Pipeline} {links : List (Fin p.nodes.length × Fin p.nodes.length)}

theorem idxOf_idAt (hids : p.ids.Nodup) (i : Fin p.nodes.length) :
    p.ids.idxOf (p.idAt i) = i.val := by
  have hi : i.val < p.ids.length := by simp [ids]
  have hget : p.ids[i.val] = p.idAt i := by simp [ids, idAt, table, Vector.get]
  rw [← hget]
  exact hids.idxOf_getElem i.val hi

theorem Linked.countP_target (hl : p.Linked links) (hids : p.ids.Nodup) (i : Fin p.nodes.length) :
    p.edges.countP (·.target = p.idAt i) = links.countP (·.2 = i) := by
  have hpairs : p.edges.countP (·.target = p.idAt i) = p.pairs.countP (·.2 = p.idAt i) := by
    unfold pairs
    rw [List.countP_map]
    rfl
  rw [hpairs, ← hl, List.countP_map]
  apply List.countP_congr
  intro l _
  simp [(idAt_injective hids).eq_iff]

/-! ## The law -/

/-- A pipeline has a wiring when every id is used once and every edge has both ends. The successors
of a node are then the positions of the targets of its edges, in the order of the edges and as
often as there are edges, and its incoming count is the number of edges that end there. Otherwise
the flaw is the first id that is used a second time, or where there is none, the first edge with a
missing end, given by its source and by the missing end, which is the source if both are. -/
theorem the_wiring_is_an_exact_picture_or_the_first_defect (p : Pipeline) :
    ((∃ w, Wiring.ofPipeline p = .ok w) ↔ p.ids.Nodup ∧ p.EndsExist) ∧
    (∀ w, Wiring.ofPipeline p = .ok w → ∀ i,
      (w.successors.get i).map (·.val) =
        (p.edges.filter (·.source = p.idAt i)).map (fun edge => p.ids.idxOf edge.target) ∧
      w.incoming.get i = p.edges.countP (·.target = p.idAt i)) ∧
    ∀ flaw, Wiring.ofPipeline p = .error flaw ↔
      (∃ id, p.RepeatsFirst id ∧ flaw = .duplicateNode id) ∨
      (p.ids.Nodup ∧ ∃ edge, p.edges.find? (p.Dangling ·) = some edge ∧
        flaw = .danglingEdge edge.source (p.missingEnd edge)) := by
  refine ⟨?_, ?_, Wiring.ofPipeline_eq_error p⟩
  · constructor
    · rintro ⟨w, hw⟩
      obtain ⟨hids, links, hl, _⟩ := (Wiring.ofPipeline_eq_ok p w).mp hw
      exact ⟨hids, hl.endsExist⟩
    · rintro ⟨hids, hends⟩
      obtain ⟨links, hl⟩ := exists_links hends
      exact ⟨_, hl.ofPipeline_eq hids⟩
  · intro w hw i
    obtain ⟨hids, links, hl, rfl⟩ := (Wiring.ofPipeline_eq_ok p w).mp hw
    constructor
    · have htargets := congrArg (List.map p.ids.idxOf) (targetsOf_idAt hl hids i)
      unfold targetsOf at htargets
      rw [List.map_map, List.map_map] at htargets
      rw [← List.map_congr_left fun j _ => idxOf_idAt hids j]
      exact htargets.symm
    · rw [Wiring.incoming_ofLinks, hl.countP_target hids]

/-- Two edges from the second node to the first one, which leads to itself. -/
def doubled : Pipeline where
  nodes := [⟨"b", .output "o" false⟩, ⟨"a", .input "i"⟩]
  edges := [⟨"a", "b", none⟩, ⟨"b", "b", none⟩, ⟨"a", "b", some "x"⟩]

/-- Edges without an end, one of them without both, behind one that has both. -/
def frayed : Pipeline where
  nodes := doubled.nodes
  edges := [⟨"a", "b", none⟩, ⟨"x", "y", none⟩, ⟨"a", "z", none⟩]

/-- Two ids are used more than once; `b` comes again before `a` does. The edges are frayed too. -/
def muddled : Pipeline where
  nodes := [⟨"a", .input "i"⟩, ⟨"b", .input "i"⟩, ⟨"c", .input "i"⟩, ⟨"b", .input "i"⟩,
    ⟨"a", .input "i"⟩, ⟨"a", .input "i"⟩]
  edges := frayed.edges

theorem the_first_of_several_defects_is_reported :
    (∃ w : Wiring 2, Wiring.ofPipeline doubled = .ok w ∧
      (w.successors.get 1).map (·.val) = [0, 0] ∧ w.incoming.get 0 = 3) ∧
    Wiring.ofPipeline frayed = .error (.danglingEdge "x" "x") ∧
    Wiring.ofPipeline muddled = .error (.duplicateNode "b") := by
  obtain ⟨hok, hpicture, _⟩ := the_wiring_is_an_exact_picture_or_the_first_defect doubled
  obtain ⟨_, _, hfrayed⟩ := the_wiring_is_an_exact_picture_or_the_first_defect frayed
  obtain ⟨_, _, hmuddled⟩ := the_wiring_is_an_exact_picture_or_the_first_defect muddled
  have hends : doubled.EndsExist := by
    unfold EndsExist
    decide
  refine ⟨?_, (hfrayed _).mpr (Or.inr ⟨by decide, ⟨"x", "y", none⟩, by decide, by decide⟩),
    (hmuddled _).mpr (Or.inl ⟨"b", ⟨["a", "b", "c"], ["a", "a"], rfl, by decide, by decide⟩, rfl⟩)⟩
  obtain ⟨w, hw⟩ := hok.mpr ⟨by decide, hends⟩
  obtain ⟨hsuccessors, _⟩ := hpicture w hw (1 : Fin 2)
  obtain ⟨_, hincoming⟩ := hpicture w hw (0 : Fin 2)
  exact ⟨w, hw, hsuccessors, hincoming⟩

end Pipeline

end PipeScript
