-- Which pipelines can be compiled: those that are one straight line of nodes. The checks come
-- in a fixed order and the first one that fails gives the flaw: ids and edges, cycles, the
-- start node, branches, nodes that cannot be reached.
import PipeScript.Pipeline.Cycle

namespace PipeScript

namespace Wiring

variable {n : Nat}

/-- The nodes where no edge ends. -/
def roots (w : Wiring n) : List (Fin n) := (List.finRange n).filter (w.incoming.get · = 0)

/-- The first node with more than one outgoing edge. -/
def firstBranching (w : Wiring n) : Option (Fin n) :=
  (List.finRange n).find? fun i => 1 < (w.successors.get i).length

/-! ## The checks -/

/-- The node where a pipeline starts. A node without any edge does not compete with one that
leads somewhere; it will turn out to be unreachable. -/
def startNode (w : Wiring n) (ids : Fin n → String) : Except Flaw (Fin n) :=
  match w.roots with
  | [] => .error .noRoot
  | [root] => .ok root
  | roots =>
    match roots.filter fun i => !(w.successors.get i).isEmpty with
    | [root] => .ok root
    | _ => .error (.multipleRoots (roots.map ids))

/-- Refuses a branch. -/
def checkBranches (w : Wiring n) (ids : Fin n → String) : Except Flaw Unit :=
  match w.firstBranching with
  | some i => .error (.branching (ids i) ((w.successors.get i).map ids))
  | none => .ok ()

/-- The nodes in the order in which they run, from the start node on; they have to be
all. -/
def cover (w : Wiring n) (ids : Fin n → String) (root : Fin n) : Except Flaw (List (Fin n)) :=
  let (seen, order) := Traversal.visit w Traversal.nothing root
  if order.length < n then
    .error (.disconnected (ids root)
      (((List.finRange n).filter fun i => !seen.get i).map ids))
  else .ok order

/-- The nodes of a straight pipeline in the order in which they run. All that is known of a node
is its id. -/
def route (w : Wiring n) (ids : Fin n → String) : Except Flaw (List (Fin n)) := do
  match w.findCycle with
  | some path => throw (.cycle (path.map ids))
  | none =>
    let root ← w.startNode ids
    w.checkBranches ids
    w.cover ids root

end Wiring

namespace Pipeline

/-- The nodes at some positions. -/
def nodesAt (p : Pipeline) (positions : List (Fin p.nodes.length)) : List Node :=
  let table := p.table
  positions.map fun i => table.get i

/-- The nodes of a straight pipeline in the order in which they run. -/
def check (p : Pipeline) : Except Flaw (List Node) := do
  let w ← Wiring.ofPipeline p
  let table := p.table
  return p.nodesAt (← w.route fun i => (table.get i).id)

/-- Every node, before all nodes that can be reached from it if there is no cycle. -/
def topologicalOrder (p : Pipeline) : Except Flaw (List Node) :=
  return p.nodesAt (← Wiring.ofPipeline p).topologicalOrder

/-- The position of the node with an id. -/
def position? (p : Pipeline) (id : String) : Option (Fin p.nodes.length) :=
  let table := p.table
  (List.finRange p.nodes.length).find? fun i => (table.get i).id = id

/-- The nodes that can be reached from the node with an id. -/
def orderFrom (p : Pipeline) (root : String) : Except Flaw (List Node) := do
  let w ← Wiring.ofPipeline p
  match p.position? root with
  | none => throw .noRoot
  | some i => return p.nodesAt (w.orderFrom i)

end Pipeline

end PipeScript
