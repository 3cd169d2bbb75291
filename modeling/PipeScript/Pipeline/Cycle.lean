-- The search for a cycle. Nodes that have not been met are white, nodes on the way are gray
-- and finished ones are black; an edge that leads back to a gray node closes a cycle.
import PipeScript.Pipeline.Traversal

namespace PipeScript

inductive Colour where
  | white
  | gray
  | black
  deriving DecidableEq, Repr, Inhabited

/-- A search under way. -/
structure CycleSearch (n : Nat) where
  colours : Vector Colour n
  /-- The nodes on the way, the innermost first. -/
  stack : List (Visit n)

namespace CycleSearch

variable {n : Nat}

/-- What a search leaves: the colours, and the cycle if it met one. -/
abbrev Answer (n : Nat) := Vector Colour n × Option (List (Fin n))

/-- The way from `node` to the innermost node and back to `node`, if it is on the way. -/
def closing (node : Fin n) (way : List (Fin n)) : Option (List (Fin n)) :=
  if node ∈ way then some (node :: (way.takeWhile (· ≠ node)).reverse ++ [node]) else none

/-- One turn: the innermost node follows its next successor, or is finished. -/
def turn (w : Wiring n) (s : CycleSearch n) : Turn (CycleSearch n) (Answer n) :=
  match s.stack with
  | [] => .stop (s.colours, none)
  | (node, []) :: stack => .again ⟨s.colours.set node .black node.isLt, stack⟩
  | (node, next :: more) :: stack =>
    match s.colours.get next with
    | .white =>
      .again ⟨s.colours.set next .gray next.isLt,
        (next, w.successors.get next) :: (node, more) :: stack⟩
    | .gray => .stop (s.colours, closing next (node :: stack.map (·.1)))
    | .black => .again ⟨s.colours, (node, more) :: stack⟩

/-- The number of nodes that have not been met. -/
def unmet (colours : Vector Colour n) : Nat := colours.count .white

theorem unmet_gray (colours : Vector Colour n) (i : Fin n) (h : colours.get i = .white) :
    unmet (colours.set i .gray i.isLt) < unmet colours := by
  have hi : colours[i.val] = .white := h
  have hpos : 0 < colours.count .white :=
    Vector.count_pos_iff.mpr (hi ▸ Vector.getElem_mem i.isLt)
  have hbeq : (colours[i.val] == Colour.white) = true := beq_iff_eq.mpr hi
  unfold unmet
  rw [Vector.count_set, if_pos hbeq, if_neg (by decide)]
  omega

theorem unmet_black (colours : Vector Colour n) (i : Fin n) :
    unmet (colours.set i .black i.isLt) ≤ unmet colours := by
  unfold unmet
  rw [Vector.count_set]
  simp

/-- A turn meets one more node, or leaves less work on the stack. -/
theorem turn_decreases (w : Wiring n) (s next : CycleSearch n) (h : s.turn w = .again next) :
    Prod.Lex (· < ·) (· < ·) (unmet next.colours, Visit.work next.stack)
      (unmet s.colours, Visit.work s.stack) := by
  unfold turn at h
  split at h
  · cases h
  · rename_i node stack heq
    cases h
    rw [heq]
    rcases Nat.lt_or_eq_of_le (unmet_black s.colours node) with hlt | heq'
    · exact Prod.Lex.left _ _ hlt
    · rw [heq']
      exact Prod.Lex.right _ (by simp [Visit.work])
  · rename_i heq
    split at h
    · rename_i hc
      cases h
      exact Prod.Lex.left _ _ (unmet_gray _ _ hc)
    · cases h
    · cases h
      rw [heq]
      exact Prod.Lex.right _ (by simp [Visit.work])

/-- Takes turns until a cycle is closed or the stack is empty. -/
def run (w : Wiring n) (s : CycleSearch n) : Answer n :=
  match _ : s.turn w with
  | .again next => run w next
  | .stop answer => answer
termination_by (unmet s.colours, Visit.work s.stack)
decreasing_by exact turn_decreases w s next ‹_›

/-- Searches from each white node of a list until a cycle is met. -/
def searchFrom (w : Wiring n) (colours : Vector Colour n) :
    List (Fin n) → Option (List (Fin n))
  | [] => none
  | start :: rest =>
    if colours.get start = .white then
      match run w ⟨colours.set start .gray start.isLt, [(start, w.successors.get start)]⟩ with
      | (_, some path) => some path
      | (colours, none) => searchFrom w colours rest
    else searchFrom w colours rest

end CycleSearch

/-- The first cycle that is met from the nodes in the order of declaration. It starts and
ends with the same node. -/
def Wiring.findCycle {n : Nat} (w : Wiring n) : Option (List (Fin n)) :=
  CycleSearch.searchFrom w (Vector.replicate n .white) (List.finRange n)

end PipeScript
