-- The traversal on a stack is the recursive one. `recursive` calls itself for every successor and
-- has no stack of its own; the loop comes to the same answer from whatever has been seen and
-- finished before, in no more turns than there are nodes and edges.
import PipeScript.Proofs.Pipeline.Loops
import PipeScript.Proofs.Pipeline.Visits

namespace PipeScript

namespace Traversal

variable {n : Nat} {w : Wiring n}

/-! ## The recursive traversal -/

/-- The recursive traversal, with the proof that it leaves no more nodes unseen than there were.
Without that, the call for a second successor could not be known to end: it starts from what the
call for the first one leaves. -/
def recursiveKept (w : Wiring n) (a : Answer n) (node : Fin n) :
    { b : Answer n // unseen b.1 ≤ unseen a.1 } :=
  if h : a.1.get node = true then ⟨a, Nat.le_refl _⟩
  else
    have hless := unseen_set a.1 node (by simpa using h)
    let marked : Answer n := (a.1.set node true node.isLt, a.2)
    let below := (w.successors.get node).foldl
      (fun (b : { b : Answer n // unseen b.1 ≤ unseen marked.1 }) next =>
        ⟨(recursiveKept w b.1 next).1, Nat.le_trans (recursiveKept w b.1 next).2 b.2⟩)
      ⟨marked, Nat.le_refl _⟩
    ⟨(below.1.1, node :: below.1.2), Nat.le_trans below.2 (Nat.le_of_lt hless)⟩
termination_by unseen a.1
decreasing_by all_goals exact Nat.lt_of_le_of_lt b.2 hless

/-- The recursive traversal from a node. -/
def recursive (w : Wiring n) (a : Answer n) (node : Fin n) : Answer n := (recursiveKept w a node).1

/-- A node that has been seen is left alone. Any other one is marked, its successors are
traversed from left to right, and then it joins the finished nodes, which stand the last one
first. -/
theorem recursive_eq (a : Answer n) (node : Fin n) :
    recursive w a node =
      if a.1.get node = true then a
      else
        let b := (w.successors.get node).foldl (recursive w) (a.1.set node true node.isLt, a.2)
        (b.1, node :: b.2) := by
  unfold recursive
  rw [recursiveKept]
  split
  · rfl
  · -- the fold carries its bound along, but does not look at it
    apply congrArg fun b : Answer n => (b.1, node :: b.2)
    exact (List.foldl_hom Subtype.val fun _ _ => rfl).symm

/-! ## The loop does what the recursion does -/

/-- Going through a list is the recursive traversal from one node of it after the other. -/
theorem Visits.foldl_recursive {a b : Answer n} {list : List (Fin n)} (h : Visits w a list b) :
    list.foldl (recursive w) a = b := by
  induction h with
  | done a => rfl
  | skip hs _ ih =>
    rw [List.foldl_cons, recursive_eq, if_pos hs]
    exact ih
  | @enter a b c next more hs _ _ ih1 ih2 =>
    -- the call for the node goes through its successors, which is the inner visit
    have hnext : recursive w a next = (b.1, next :: b.2) := by
      rw [recursive_eq, if_neg (by simp [hs]), ih1]
    rw [List.foldl_cons, hnext]
    exact ih2

theorem visit_eq_recursive (a : Answer n) (start : Fin n) :
    visit w a start = recursive w a start := (visit_visits a start).foldl_recursive.symm

/-- The state in which the loop starts at a node that is new. -/
def entered (w : Wiring n) (a : Answer n) (start : Fin n) : Traversal n :=
  ⟨a.1.set start true start.isLt, [(start, w.successors.get start)], a.2⟩

theorem visit_of_new {a : Answer n} {start : Fin n} (h : a.1.get start = false) :
    visit w a start = run w (entered w a start) := by
  unfold visit
  rw [if_neg (by simp [h])]
  rfl

/-- At the start of a loop no more turns are left than there are nodes and links. -/
theorem left_entered (links : List (Fin n × Fin n)) {a : Answer n} {start : Fin n}
    (h : a.1.get start = false) :
    left links (entered (.ofLinks links) a start) ≤ n + links.length := by
  have hpaid : Wiring.owed links (!·) (a.1.set start true start.isLt) + _ = _ :=
    Wiring.owed_set links (by simpa using h) rfl
  have hall := Wiring.owed_le links (!·) a.1
  simp only [left, entered, Visit.work]
  omega

/-- Whatever has been seen and finished before, the traversal on a stack leaves what the recursive
one leaves, which passes a node that has been seen, and otherwise marks the node, traverses its
successors from left to right and then finishes it. The loop ends, after no more turns than the
pipeline has nodes and edges. -/
theorem the_stack_stands_for_recursion (p : Pipeline) (w : Wiring p.nodes.length)
    (hw : Wiring.ofPipeline p = .ok w) (a : Answer p.nodes.length) (start : Fin p.nodes.length) :
    (∀ a node, recursive w a node =
      if a.1.get node = true then a
      else
        let b := (w.successors.get node).foldl (recursive w) (a.1.set node true node.isLt, a.2)
        (b.1, node :: b.2)) ∧
    visit w a start = recursive w a start ∧
    (a.1.get start = false → ∃ turns ≤ p.nodes.length + p.edges.length,
      Turn.Ends (turn w) (entered w a start) turns (recursive w a start)) := by
  refine ⟨recursive_eq, visit_eq_recursive a start, fun hnew => ?_⟩
  obtain ⟨_, links, hl, rfl⟩ := (Wiring.ofPipeline_eq_ok p w).mp hw
  obtain ⟨turns, hends⟩ := ends_run (.ofLinks links) (entered (.ofLinks links) a start)
  rw [← visit_of_new hnew, visit_eq_recursive] at hends
  refine ⟨turns, ?_, hends⟩
  calc turns ≤ left links (entered (.ofLinks links) a start) := hends.le left_turn
    _ ≤ p.nodes.length + links.length := left_entered links hnew
    _ = p.nodes.length + p.edges.length := by rw [hl.length_eq]

/-- A node with an edge to itself and two to the next one, which leads back to it and on. -/
def knot : Pipeline where
  nodes := [⟨"a", .input "a"⟩, ⟨"b", .input "b"⟩, ⟨"c", .input "c"⟩, ⟨"d", .input "d"⟩]
  edges := [⟨"a", "a", none⟩, ⟨"a", "b", none⟩, ⟨"a", "b", some "x"⟩, ⟨"b", "a", none⟩,
    ⟨"b", "c", none⟩, ⟨"c", "d", none⟩]

/-- The edges of the knot by position. -/
def knotLinks : List (Fin 4 × Fin 4) := [(0, 0), (0, 1), (0, 1), (1, 0), (1, 2), (2, 3)]

/-- The third node has been seen and finished. -/
def thirdFinished : Answer 4 := (#v[false, false, true, false], [2])

theorem a_knot_is_traversed_in_seven_turns :
    ∃ w : Wiring 4, Wiring.ofPipeline knot = .ok w ∧
      visit w thirdFinished 0 = recursive w thirdFinished 0 ∧
      recursive w thirdFinished 0 = (#v[true, true, true, false], [0, 1, 2]) ∧
      Turn.Ends (turn w) (entered w thirdFinished 0) 7 (recursive w thirdFinished 0) := by
  have hl : knot.Linked knotLinks := rfl
  have hw := hl.ofPipeline_eq (by decide)
  obtain ⟨_, hvisit, hloop⟩ := the_stack_stands_for_recursion knot _ hw thirdFinished (0 : Fin 4)
  obtain ⟨_, _, hends⟩ := hloop rfl
  have hturns : Turn.Ends (turn (.ofLinks knotLinks)) (entered (.ofLinks knotLinks) thirdFinished 0)
      7 (#v[true, true, true, false], [0, 1, 2]) :=
    .again rfl (.again rfl (.again rfl (.again rfl (.again rfl (.again rfl (.again rfl
      (.stop rfl)))))))
  have heq := hends.unique hturns
  exact ⟨_, hw, hvisit, heq, heq ▸ hturns⟩

end Traversal

end PipeScript
