-- The laws of the search for a cycle. Every turn keeps the invariant `Good`, so the search
-- never loses a gray node, a cycle that it shows is one, and a wiring where it finds none has
-- none.
import PipeScript.Pipeline.Check
import PipeScript.Proofs.Pipeline.Ways

namespace PipeScript

open Relation (TransGen ReflTransGen)

namespace CycleSearch

variable {n : Nat} {w : Wiring n}

/-! ## The invariant -/

/-- The nodes on the way, the innermost first. -/
def way (stack : List (Visit n)) : List (Fin n) := stack.map (·.1)

/-- What a node on the way still has to follow are successors of it, and so is the node
further in. The other successors are black. -/
def Followed (w : Wiring n) (colours : Vector Colour n) : Option (Fin n) → List (Visit n) → Prop
  | _, [] => True
  | inner, (node, rest) :: stack =>
    (∀ j ∈ rest, w.Leads node j) ∧ (∀ j ∈ inner, w.Leads node j) ∧
    (∀ j, w.Leads node j → j ∈ rest ∨ j ∈ inner ∨ colours.get j = .black) ∧
    Followed w colours (some node) stack

structure Good (w : Wiring n) (s : CycleSearch n) : Prop where
  gray_iff : ∀ i, s.colours.get i = .gray ↔ i ∈ way s.stack
  nodup : (way s.stack).Nodup
  followed : Followed w s.colours none s.stack
  closed : ∀ i j, s.colours.get i = .black → w.Leads i j → s.colours.get j = .black
  free : ∀ i, s.colours.get i = .black → ¬ TransGen w.Leads i i

theorem followed_mono {colours colours' : Vector Colour n} {inner : Option (Fin n)}
    {stack : List (Visit n)} (hb : ∀ j, colours.get j = .black → colours'.get j = .black)
    (h : Followed w colours inner stack) : Followed w colours' inner stack := by
  induction stack generalizing inner with
  | nil => trivial
  | cons visit stack ih =>
    obtain ⟨h1, h2, h3, h4⟩ := h
    refine ⟨h1, h2, fun j hj => ?_, ih h4⟩
    rcases h3 j hj with h | h | h
    · exact Or.inl h
    · exact Or.inr (Or.inl h)
    · exact Or.inr (Or.inr (hb j h))

/-- When the node further in is black, it counts as followed. -/
theorem followed_none {colours : Vector Colour n} {node : Fin n} {stack : List (Visit n)}
    (hb : colours.get node = .black) (h : Followed w colours (some node) stack) :
    Followed w colours none stack := by
  cases stack with
  | nil => trivial
  | cons visit stack =>
    obtain ⟨h1, _, h3, h4⟩ := h
    refine ⟨h1, by simp, fun j hj => ?_, h4⟩
    rcases h3 j hj with h | h | h
    · exact Or.inl h
    · cases h
      exact Or.inr (Or.inr hb)
    · exact Or.inr (Or.inr h)

/-- The way is one: each node leads to the one further in. -/
theorem isChain_way {colours : Vector Colour n} {inner : Option (Fin n)} {stack : List (Visit n)}
    (h : Followed w colours inner stack) : (way stack).IsChain fun i j => w.Leads j i := by
  induction stack generalizing inner with
  | nil => exact List.isChain_nil
  | cons visit stack ih =>
    have hrest := h.2.2.2
    cases stack with
    | nil => exact List.isChain_singleton _
    | cons outer stack => exact List.isChain_cons_cons.mpr ⟨hrest.2.1 _ rfl, ih hrest⟩

theorem black_of_reached {s : CycleSearch n} (h : Good w s) {i j : Fin n}
    (hi : s.colours.get i = .black) (hway : ReflTransGen w.Leads i j) :
    s.colours.get j = .black := by
  induction hway with
  | refl => exact hi
  | tail _ hjk ih => exact h.closed _ _ ih hjk

/-! ## A white node turns gray -/

section

variable {colours : Vector Colour n} {next : Fin n}

theorem gray_of_entered (i : Fin n) :
    (colours.set next .gray next.isLt).get i = .gray ↔ i = next ∨ colours.get i = .gray := by
  rw [Wiring.get_set]
  by_cases hi : next = i
  · simp [hi]
  · simp [hi, Ne.symm hi]

theorem black_of_entered (hnext : colours.get next = .white) (i : Fin n) :
    (colours.set next .gray next.isLt).get i = .black ↔ colours.get i = .black := by
  rw [Wiring.get_set]
  by_cases hi : next = i
  · subst hi
    simp [hnext]
  · rw [if_neg hi]

end

/-! ## The turns keep it -/

/-- A node that has followed everything turns black. -/
theorem good_finish {colours : Vector Colour n} {node : Fin n} {stack : List (Visit n)}
    (h : Good w ⟨colours, (node, []) :: stack⟩) :
    Good w ⟨colours.set node .black node.isLt, stack⟩ := by
  obtain ⟨hgray, hnd, ⟨_, _, hall, hrest⟩, hclosed, hfree⟩ := id h
  simp only [way, List.map_cons, List.nodup_cons] at hnd
  have hnode : colours.get node = .gray := (hgray node).mpr (by simp [way])
  have hsucc : ∀ j, w.Leads node j → colours.get j = .black := by
    intro j hj
    simpa using hall j hj
  have hmono : ∀ j, colours.get j = .black →
      (colours.set node .black node.isLt).get j = .black := by
    intro j hj
    rw [Wiring.get_set]
    split
    · rfl
    · exact hj
  -- a black node is an old one or the one that has just been finished
  have hcases : ∀ i, (colours.set node .black node.isLt).get i = .black →
      i = node ∨ colours.get i = .black := by
    intro i hi
    rw [Wiring.get_set] at hi
    split at hi
    · exact Or.inl (Eq.symm ‹_›)
    · exact Or.inr hi
  refine ⟨?_, hnd.2, ?_, ?_, ?_⟩
  · intro i
    rw [Wiring.get_set]
    by_cases hi : node = i
    · subst hi
      simpa [way] using hnd.1
    · rw [if_neg hi, hgray i]
      simp [way, Ne.symm hi]
  · have hnow : (colours.set node .black node.isLt).get node = .black := by
      rw [Wiring.get_set, if_pos rfl]
    exact followed_none hnow (followed_mono hmono hrest)
  · intro i j hi hij
    rcases hcases i hi with rfl | hi
    · exact hmono j (hsucc j hij)
    · exact hmono j (hclosed i j hi hij)
  · intro i hi hcycle
    rcases hcases i hi with rfl | hi
    · -- all that a finished node leads to is black, and it was gray itself
      obtain ⟨j, hij, hway⟩ := TransGen.head'_iff.mp hcycle
      have hblack := black_of_reached h (hsucc j hij) hway
      rw [hnode] at hblack
      cases hblack
    · exact hfree i hi hcycle

/-- A white node that is met turns gray. -/
theorem good_enter {colours : Vector Colour n} {node next : Fin n} {more : List (Fin n)}
    {stack : List (Visit n)} (h : Good w ⟨colours, (node, next :: more) :: stack⟩)
    (hnext : colours.get next = .white) :
    Good w ⟨colours.set next .gray next.isLt,
      (next, w.successors.get next) :: (node, more) :: stack⟩ := by
  obtain ⟨hgray, hnd, ⟨hown, _, hall, hrest⟩, hclosed, hfree⟩ := h
  have hblack := black_of_entered hnext
  have hnew : next ∉ way ((node, next :: more) :: stack) := by
    rw [← hgray next, hnext]
    simp
  refine ⟨?_, ?_, ?_, ?_, ?_⟩
  · intro i
    rw [gray_of_entered, hgray i]
    exact List.mem_cons.symm
  · exact List.nodup_cons.mpr ⟨hnew, hnd⟩
  · refine ⟨fun j hj => hj, by simp, fun j hj => Or.inl hj, ?_, ?_, ?_, ?_⟩
    · exact fun j hj => hown j (List.mem_cons_of_mem next hj)
    · rintro j ⟨⟩
      exact hown next List.mem_cons_self
    · intro j hj
      rcases hall j hj with h | h | h
      · rcases List.mem_cons.mp h with rfl | h
        · exact Or.inr (Or.inl rfl)
        · exact Or.inl h
      · cases h
      · exact Or.inr (Or.inr ((hblack j).mpr h))
    · exact followed_mono (fun j hj => (hblack j).mpr hj) hrest
  · intro i j hi hij
    exact (hblack j).mpr (hclosed i j ((hblack i).mp hi) hij)
  · intro i hi
    exact hfree i ((hblack i).mp hi)

/-- A black node need not be followed. -/
theorem good_skip {colours : Vector Colour n} {node next : Fin n} {more : List (Fin n)}
    {stack : List (Visit n)} (h : Good w ⟨colours, (node, next :: more) :: stack⟩)
    (hnext : colours.get next = .black) : Good w ⟨colours, (node, more) :: stack⟩ := by
  obtain ⟨hgray, hnd, ⟨hown, hin, hall, hrest⟩, hclosed, hfree⟩ := h
  refine ⟨hgray, hnd, ⟨fun j hj => hown j (List.mem_cons_of_mem next hj), hin, ?_, hrest⟩,
    hclosed, hfree⟩
  intro j hj
  rcases hall j hj with h | h | h
  · rcases List.mem_cons.mp h with rfl | h
    · exact Or.inr (Or.inr hnext)
    · exact Or.inl h
  · exact Or.inr (Or.inl h)
  · exact Or.inr (Or.inr h)

/-! ## A cycle that is shown -/

/-- A way back to where it starts that meets no other node twice. -/
structure Round (w : Wiring n) (path : List (Fin n)) : Prop where
  long : 2 ≤ path.length
  back : path.head? = path.getLast?
  once : path.dropLast.Nodup
  leads : path.IsChain w.Leads

theorem closing_eq {next : Fin n} {inner outer : List (Fin n)} (h : next ∉ inner) :
    closing next (inner ++ next :: outer) = some (next :: inner.reverse ++ [next]) := by
  have hinner : ∀ i ∈ inner, decide (i ≠ next) = true := by
    intro i hi
    rw [decide_eq_true_eq]
    rintro rfl
    exact h hi
  unfold closing
  rw [if_pos (by simp), List.takeWhile_append_of_pos hinner]
  simp

/-- The innermost node leads back to a node on the way: the way between them is a cycle. -/
theorem closing_round {node next : Fin n} {outer : List (Fin n)}
    (hchain : (node :: outer).IsChain fun i j => w.Leads j i) (hnd : (node :: outer).Nodup)
    (hlead : w.Leads node next) (hmem : next ∈ node :: outer) :
    ∃ path, closing next (node :: outer) = some path ∧ Round w path := by
  obtain ⟨inner, rest, heq, hnot⟩ := List.eq_append_cons_of_mem hmem
  rw [heq, show inner ++ next :: rest = (inner ++ [next]) ++ rest by simp] at hchain hnd
  have hback : (next :: inner.reverse).IsChain w.Leads := by
    have := List.isChain_reverse.mpr hchain.left_of_append
    simpa using this
  have hlast : (next :: inner.reverse).getLast? = some node := by
    have hhead : (inner ++ [next]).head? = some node := by
      have := congrArg List.head? heq
      cases inner <;> simpa using this.symm
    rw [← hhead, List.head?_eq_getLast?_reverse]
    simp
  refine ⟨_, heq ▸ closing_eq hnot, by simp, by rw [List.getLast?_concat]; rfl, ?_, ?_⟩
  · rw [List.dropLast_concat]
    have := List.nodup_reverse.mpr hnd.of_append_left
    simpa using this
  · refine hback.append (List.isChain_singleton next) ?_
    rw [hlast]
    rintro _ ⟨⟩ _ ⟨⟩
    exact hlead

theorem Round.transGen {path : List (Fin n)} (h : Round w path) :
    ∃ i, TransGen w.Leads i i := by
  obtain ⟨hlong, hback, _, hleads⟩ := h
  match path with
  | [] => simp at hlong
  | [_] => simp at hlong
  | a :: b :: rest =>
    have hway := Wiring.transGen_of_isChain hleads
    have hlast : (b :: rest).getLast (List.cons_ne_nil b rest) = a := by
      rw [List.getLast?_cons_cons, List.getLast?_eq_getLast_of_ne_nil (List.cons_ne_nil b rest)]
        at hback
      exact (Option.some.inj hback).symm
    rw [hlast] at hway
    exact ⟨a, hway⟩

/-! ## A whole search -/

theorem good_turn {s next : CycleSearch n} (h : Good w s) (ht : s.turn w = .again next) :
    Good w next ∧ ∀ i, s.colours.get i ≠ .white → next.colours.get i ≠ .white := by
  obtain ⟨colours, stack⟩ := s
  have hset : ∀ (j : Fin n) (c : Colour), c ≠ .white → ∀ i, colours.get i ≠ .white →
      (colours.set j c j.isLt).get i ≠ .white := by
    intro j c hc i hi
    rw [Wiring.get_set]
    split
    · exact hc
    · exact hi
  unfold turn at ht
  split at ht
  · cases ht
  · rename_i node stack hs
    cases hs
    cases ht
    exact ⟨good_finish h, hset _ _ (by simp)⟩
  · rename_i node next more stack hs
    cases hs
    split at ht
    · cases ht
      exact ⟨good_enter h ‹_›, hset _ _ (by simp)⟩
    · cases ht
    · cases ht
      exact ⟨good_skip h ‹_›, fun _ hi => hi⟩

/-- A search ends with an empty stack, or with a cycle: a gray node is always on the way. -/
theorem stop_of_turn {s : CycleSearch n} {answer : Answer n} (h : Good w s)
    (ht : s.turn w = .stop answer) :
    (s.stack = [] ∧ answer = (s.colours, none)) ∨ ∃ path, answer.2 = some path ∧ Round w path := by
  obtain ⟨colours, stack⟩ := s
  unfold turn at ht
  split at ht
  · rename_i hs
    cases ht
    exact Or.inl ⟨hs, rfl⟩
  · cases ht
  · rename_i node next more stack hs
    cases hs
    split at ht
    · cases ht
    · cases ht
      have hmem : next ∈ way ((node, next :: more) :: stack) := (h.gray_iff next).mp ‹_›
      exact Or.inr (closing_round (isChain_way h.followed) h.nodup
        (h.followed.1 next List.mem_cons_self) hmem)
    · cases ht

theorem good_run (s : CycleSearch n) (h : Good w s) :
    (∀ path, (run w s).2 = some path → Round w path) ∧
    ((run w s).2 = none → Good w ⟨(run w s).1, []⟩ ∧
      ∀ i, s.colours.get i ≠ .white → (run w s).1.get i ≠ .white) := by
  fun_induction run w s with
  | case1 s next ht ih =>
    obtain ⟨hnext, hkeep⟩ := good_turn h ht
    obtain ⟨h1, h2⟩ := ih hnext
    refine ⟨h1, fun hnone => ⟨(h2 hnone).1, fun i hi => (h2 hnone).2 i (hkeep i hi)⟩⟩
  | case2 s answer ht =>
    rcases stop_of_turn h ht with ⟨hs, rfl⟩ | ⟨path, hpath, hround⟩
    · refine ⟨by simp, fun _ => ⟨?_, fun i hi => hi⟩⟩
      obtain ⟨colours, stack⟩ := s
      simp only at hs
      subst hs
      exact h
    · rw [hpath]
      refine ⟨?_, by simp⟩
      rintro _ ⟨⟩
      exact hround

/-- A search that starts at a white node can go on from there. -/
theorem good_start {colours : Vector Colour n} {start : Fin n} (h : Good w ⟨colours, []⟩)
    (hs : colours.get start = .white) :
    Good w ⟨colours.set start .gray start.isLt, [(start, w.successors.get start)]⟩ := by
  obtain ⟨hgray, _, _, hclosed, hfree⟩ := h
  have hblack := black_of_entered hs
  refine ⟨?_, by simp [way], ?_, ?_, ?_⟩
  · intro i
    rw [gray_of_entered, hgray i]
    exact List.mem_cons.symm
  · exact ⟨fun j hj => hj, by simp, fun j hj => Or.inl hj, trivial⟩
  · intro i j hi hij
    exact (hblack j).mpr (hclosed i j ((hblack i).mp hi) hij)
  · intro i hi
    exact hfree i ((hblack i).mp hi)

/-- Between two searches every node that has been met is black. -/
theorem black_of_met {colours : Vector Colour n} (h : Good w ⟨colours, []⟩) {i : Fin n}
    (hi : colours.get i ≠ .white) : colours.get i = .black := by
  have hgray : colours.get i ≠ .gray := fun hg => by simpa [way] using (h.gray_iff i).mp hg
  cases hc : colours.get i
  · exact absurd hc hi
  · exact absurd hc hgray
  · rfl

theorem searchFrom_some {colours : Vector Colour n} {starts path : List (Fin n)}
    (h : Good w ⟨colours, []⟩) (hp : searchFrom w colours starts = some path) : Round w path := by
  induction starts generalizing colours with
  | nil => cases hp
  | cons start rest ih =>
    unfold searchFrom at hp
    split at hp
    · rename_i hs
      have hrun := good_run _ (good_start h hs)
      split at hp
      · rename_i found heq
        cases hp
        exact hrun.1 path (by rw [heq])
      · rename_i heq
        rw [heq] at hrun
        exact ih (hrun.2 rfl).1 hp
    · exact ih h hp

theorem searchFrom_none {colours : Vector Colour n} {starts : List (Fin n)}
    (h : Good w ⟨colours, []⟩) (hp : searchFrom w colours starts = none) :
    ∀ i ∈ starts, ¬ TransGen w.Leads i i := by
  induction starts generalizing colours with
  | nil => simp
  | cons start rest ih =>
    unfold searchFrom at hp
    split at hp
    · rename_i hs
      have hrun := good_run _ (good_start h hs)
      split at hp
      · cases hp
      · rename_i colours' heq
        rw [heq] at hrun
        obtain ⟨hgood, hkeep⟩ := hrun.2 rfl
        have hmet : colours'.get start ≠ .white := by
          apply hkeep
          rw [Wiring.get_set, if_pos rfl]
          simp
        rintro i (_ | ⟨_, hi⟩)
        · exact hgood.free start (black_of_met hgood hmet)
        · exact ih hgood hp i hi
    · rename_i hs
      rintro i (_ | ⟨_, hi⟩)
      · exact h.free start (black_of_met h hs)
      · exact ih h hp i hi

end CycleSearch

namespace Wiring

variable {n : Nat} {w : Wiring n}

theorem good_nothing : CycleSearch.Good w ⟨Vector.replicate n .white, []⟩ := by
  have hwhite : ∀ i, (Vector.replicate n Colour.white).get i = .white :=
    fun i => Vector.getElem_replicate _
  refine ⟨?_, List.nodup_nil, trivial, ?_, ?_⟩
  · intro i
    rw [hwhite]
    simp [CycleSearch.way]
  · intro i j hi
    rw [hwhite] at hi
    cases hi
  · intro i hi
    rw [hwhite] at hi
    cases hi

theorem findCycle_round {path : List (Fin n)} (h : w.findCycle = some path) :
    CycleSearch.Round w path := CycleSearch.searchFrom_some good_nothing h

theorem findCycle_eq_none : w.findCycle = none ↔ w.Acyclic := by
  constructor
  · intro h i
    exact CycleSearch.searchFrom_none good_nothing h i (List.mem_finRange i)
  · intro h
    rcases hf : w.findCycle with _ | path
    · rfl
    · obtain ⟨i, hi⟩ := (findCycle_round hf).transGen
      exact absurd hi (h i)

end Wiring

/-! ## What a check says about cycles -/

namespace Wiring

variable {n : Nat} (w : Wiring n) (ids : Fin n → String)

theorem startNode_ne_cycle (path : List String) : w.startNode ids ≠ .error (.cycle path) := by
  unfold startNode
  split
  · simp
  · simp
  · split <;> simp

theorem checkBranches_ne_cycle (path : List String) :
    w.checkBranches ids ≠ .error (.cycle path) := by
  unfold checkBranches
  split <;> simp

theorem cover_ne_cycle (root : Fin n) (path : List String) :
    w.cover ids root ≠ .error (.cycle path) := by
  unfold cover
  simp only
  split <;> simp

theorem route_of_no_cycle {w : Wiring n} (h : w.findCycle = none) (ids : Fin n → String) :
    w.route ids = w.startNode ids >>= fun root =>
      w.checkBranches ids >>= fun _ => w.cover ids root := by
  unfold route
  rw [h]

/-- A cycle is reported when the search finds one, and only then. -/
theorem route_eq_cycle (path : List String) :
    w.route ids = .error (.cycle path) ↔ ∃ way, w.findCycle = some way ∧ path = way.map ids := by
  rcases hf : w.findCycle with _ | way
  · have hrest : w.route ids ≠ .error (.cycle path) := by
      rw [route_of_no_cycle hf]
      rcases hs : w.startNode ids with flaw | root
      · simpa [bind, Except.bind, hs] using w.startNode_ne_cycle ids path
      · rcases hb : w.checkBranches ids with flaw | _
        · simpa [bind, Except.bind, hb] using w.checkBranches_ne_cycle ids path
        · exact w.cover_ne_cycle ids root path
    simpa using hrest
  · unfold route
    rw [hf]
    simp [throw, throwThe, MonadExceptOf.throw, eq_comm]

end Wiring

namespace Pipeline

variable {p : Pipeline}

theorem check_of_ofPipeline {w : Wiring p.nodes.length} (hw : Wiring.ofPipeline p = .ok w) :
    p.check = (w.route p.idAt).map p.nodesAt := by
  unfold check
  rw [hw]
  show (w.route p.idAt >>= fun positions => pure (p.nodesAt positions)) = _
  rcases w.route p.idAt with flaw | positions <;> rfl

/-- The check reports a cycle when the search finds one, and only then. -/
theorem check_eq_cycle {w : Wiring p.nodes.length} (hw : Wiring.ofPipeline p = .ok w)
    (path : List String) :
    p.check = .error (.cycle path) ↔ ∃ way, w.findCycle = some way ∧ path = way.map p.idAt := by
  rw [← w.route_eq_cycle, check_of_ofPipeline hw]
  rcases w.route p.idAt with flaw | positions <;> simp [Except.map]

/-- A pipeline is refused for a cycle when it has one, whatever else is wrong with it, and the
path that is reported is such a cycle: it ends where it starts, meets no other node twice and
follows the edges. -/
theorem a_cycle_is_found_and_shown (p : Pipeline) (hids : p.ids.Nodup) (hends : p.EndsExist) :
    ((∃ path, p.check = .error (.cycle path)) ↔ ∃ id, TransGen p.Leads id id) ∧
    ∀ path, p.check = .error (.cycle path) →
      2 ≤ path.length ∧ path.head? = path.getLast? ∧ path.dropLast.Nodup ∧
      ∀ pair ∈ neighbours path, ∃ e ∈ p.edges, (e.source, e.target) = pair := by
  obtain ⟨links, hl⟩ := exists_links hends
  have hw := (Wiring.ofPipeline_eq_ok p _).mpr ⟨hids, links, hl, rfl⟩
  simp only [check_eq_cycle hw]
  refine ⟨?_, ?_⟩
  · have hnone := (Wiring.findCycle_eq_none (w := .ofLinks links)).trans (hl.acyclic_iff hids).symm
    rcases hf : (Wiring.ofLinks links).findCycle with _ | way
    · simpa [Acyclic] using hnone.mp hf
    · have hcycle : ¬ p.Acyclic := fun h => by
        rw [hnone.mpr h] at hf
        cases hf
      simpa [Acyclic] using hcycle
  · rintro _ ⟨way, hway, rfl⟩
    obtain ⟨hlong, hback, honce, hleads⟩ := Wiring.findCycle_round hway
    refine ⟨by simpa using hlong, by simp [hback], ?_, ?_⟩
    · rw [← List.map_dropLast]
      exact honce.map (idAt_injective hids)
    · rw [neighbours_map]
      intro pair hp
      obtain ⟨⟨i, j⟩, hij, rfl⟩ := List.mem_map.mp hp
      have hlead := (isChain_iff_neighbours _ _).mp hleads (i, j) hij
      obtain ⟨e, he, hs, ht⟩ := (hl.leads_idAt hids i j).mpr hlead
      exact ⟨e, he, by rw [hs, ht]⟩

/-- A cycle of two nodes behind a start node that branches, beside a node with no edge. -/
def tangle : Pipeline where
  nodes := [⟨"a", .input "in"⟩, ⟨"b", .command "sort" .empty⟩, ⟨"c", .command "uniq" .empty⟩,
    ⟨"d", .output "out" false⟩]
  edges := [⟨"a", "b", none⟩, ⟨"b", "c", none⟩, ⟨"a", "c", some "x"⟩, ⟨"c", "b", none⟩]

theorem the_cycle_of_a_tangle_is_shown :
    tangle.ids.Nodup ∧ tangle.EndsExist ∧ ∃ path, tangle.check = .error (.cycle path) ∧
      2 ≤ path.length ∧ path.head? = path.getLast? ∧ path.dropLast.Nodup ∧
      ∀ pair ∈ neighbours path, ∃ e ∈ tangle.edges, (e.source, e.target) = pair := by
  have hids : tangle.ids.Nodup := by decide
  have hends : tangle.EndsExist := by unfold EndsExist; decide
  have hbc : tangle.Leads "b" "c" := by unfold Leads; decide
  have hcb : tangle.Leads "c" "b" := by unfold Leads; decide
  obtain ⟨hfound, hshown⟩ := a_cycle_is_found_and_shown tangle hids hends
  obtain ⟨path, hpath⟩ := hfound.mpr ⟨"b", (TransGen.single hbc).tail hcb⟩
  exact ⟨hids, hends, path, hpath, hshown path hpath⟩

end Pipeline

end PipeScript
