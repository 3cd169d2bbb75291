-- Depth-first traversal of a pipeline. A node is finished when everything it leads to has
-- been seen, and the last node to finish comes first in the order. The nodes on the way are
-- kept on a stack with what they still have to follow, so a pipeline may be of any length.
import PipeScript.Pipeline.Wiring

namespace PipeScript

/-- One turn of a loop: it goes on with a state, or stops with a result. -/
inductive Turn (state result : Type) where
  | again (next : state)
  | stop (answer : result)

/-- A node on the way, with the successors that it still has to follow. -/
abbrev Visit (n : Nat) := Fin n × List (Fin n)

/-- The work that a stack of visits still holds. -/
def Visit.work {n : Nat} : List (Visit n) → Nat
  | [] => 0
  | visit :: stack => visit.2.length + 1 + work stack

/-- A traversal under way. -/
structure Traversal (n : Nat) where
  seen : Vector Bool n
  /-- The nodes on the way, the innermost first. -/
  stack : List (Visit n)
  /-- The finished nodes, the last one first. -/
  finished : List (Fin n)

namespace Traversal

variable {n : Nat}

/-- What a traversal leaves: the nodes it has seen, and the finished ones, the last one
first. -/
abbrev Answer (n : Nat) := Vector Bool n × List (Fin n)

/-- One turn: the innermost node follows its next successor, or is finished. -/
def turn (w : Wiring n) (t : Traversal n) : Turn (Traversal n) (Answer n) :=
  match t.stack with
  | [] => .stop (t.seen, t.finished)
  | (node, []) :: stack => .again ⟨t.seen, stack, node :: t.finished⟩
  | (node, next :: more) :: stack =>
    if t.seen.get next then .again ⟨t.seen, (node, more) :: stack, t.finished⟩
    else
      .again ⟨t.seen.set next true next.isLt, (next, w.successors.get next) :: (node, more) :: stack,
        t.finished⟩

/-- The number of nodes that have not been seen. -/
def unseen (seen : Vector Bool n) : Nat := seen.count false

theorem unseen_set (seen : Vector Bool n) (i : Fin n) (h : seen.get i = false) :
    unseen (seen.set i true i.isLt) < unseen seen := by
  have hi : seen[i.val] = false := h
  have hpos : 0 < seen.count false :=
    Vector.count_pos_iff.mpr (hi ▸ Vector.getElem_mem i.isLt)
  have hbeq : (seen[i.val] == false) = true := beq_iff_eq.mpr hi
  unfold unseen
  rw [Vector.count_set, if_pos hbeq, if_neg (by decide)]
  omega

/-- A turn sees one more node, or leaves less work on the stack. -/
theorem turn_decreases (w : Wiring n) (t next : Traversal n) (h : t.turn w = .again next) :
    Prod.Lex (· < ·) (· < ·) (unseen next.seen, Visit.work next.stack)
      (unseen t.seen, Visit.work t.stack) := by
  unfold turn at h
  split at h
  · cases h
  · rename_i heq
    cases h
    rw [heq]
    exact Prod.Lex.right _ (by simp [Visit.work])
  · rename_i heq
    split at h
    · cases h
      rw [heq]
      exact Prod.Lex.right _ (by simp [Visit.work])
    · rename_i hs
      cases h
      exact Prod.Lex.left _ _ (unseen_set _ _ (by simpa using hs))

/-- Takes turns until the stack is empty. -/
def run (w : Wiring n) (t : Traversal n) : Answer n :=
  match _ : t.turn w with
  | .again next => run w next
  | .stop answer => answer
termination_by (unseen t.seen, Visit.work t.stack)
decreasing_by exact turn_decreases w t next ‹_›

/-- Traverses from a node, unless it has been seen. -/
def visit (w : Wiring n) (answer : Answer n) (start : Fin n) : Answer n :=
  if answer.1.get start then answer
  else run w ⟨answer.1.set start true start.isLt, [(start, w.successors.get start)], answer.2⟩

/-- Nothing seen, nothing finished. -/
def nothing : Answer n := (Vector.replicate n false, [])

end Traversal

namespace Wiring

variable {n : Nat}

/-- Every node, from traversals that start at the nodes in the order of declaration; what a
later traversal finishes comes before what an earlier one did. -/
def topologicalOrder (w : Wiring n) : List (Fin n) :=
  ((List.finRange n).foldl (Traversal.visit w) Traversal.nothing).2

/-- The nodes that can be reached from a node. -/
def orderFrom (w : Wiring n) (root : Fin n) : List (Fin n) :=
  (Traversal.visit w Traversal.nothing root).2

end Wiring

end PipeScript
