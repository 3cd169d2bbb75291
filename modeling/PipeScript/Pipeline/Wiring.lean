-- The connections of a pipeline by position: who follows whom, in the order of the edges,
-- and how many edges end where. Ids have to be unique and edges have to end somewhere.
import Std.Data.HashMap
import Std.Data.HashSet
import PipeScript.Pipeline.Basic
import PipeScript.Pipeline.Flaw

namespace PipeScript

/-- The connections between `n` nodes. -/
structure Wiring (n : Nat) where
  /-- The nodes that a node leads to, one for each edge, in the order of the edges. -/
  successors : Vector (List (Fin n)) n
  /-- The number of edges that end in a node. -/
  incoming : Vector Nat n

/-! ## Unique ids -/

/-- The first id that has been seen before. -/
def firstRepeat (seen : Std.HashSet String) : List String → Option String
  | [] => none
  | id :: rest => if seen.contains id then some id else firstRepeat (seen.insert id) rest

namespace Pipeline

/-- The nodes by position. -/
def table (p : Pipeline) : Vector Node p.nodes.length := ⟨p.nodes.toArray, by simp⟩

/-- The position of every id. -/
def positions (p : Pipeline) : Std.HashMap String (Fin p.nodes.length) :=
  (p.table.mapFinIdx fun i node h => (node.id, (⟨i, h⟩ : Fin p.nodes.length))).foldl
    (fun map entry => map.insert entry.1 entry.2) ∅

end Pipeline

namespace Wiring

variable {n : Nat}

/-! ## Edges by position -/

/-- The positions that an edge connects, or its missing end. -/
def link (positions : Std.HashMap String (Fin n)) (edge : Edge) :
    Except Flaw (Fin n × Fin n) :=
  match positions[edge.source]?, positions[edge.target]? with
  | some source, some target => .ok (source, target)
  | none, _ => .error (.danglingEdge edge.source edge.source)
  | some _, none => .error (.danglingEdge edge.source edge.target)

/-- Notes one more edge, which comes before those already noted. -/
def addLink (link : Fin n × Fin n) (wiring : Wiring n) : Wiring n where
  successors := wiring.successors.set link.1 (link.2 :: wiring.successors.get link.1) link.1.isLt
  incoming := wiring.incoming.set link.2 (wiring.incoming.get link.2 + 1) link.2.isLt

/-- The wiring of a list of edges. -/
def ofLinks (links : List (Fin n × Fin n)) : Wiring n :=
  links.foldr addLink ⟨Vector.replicate n [], Vector.replicate n 0⟩

/-- The wiring of a pipeline, or the first thing that is wrong with its ids and edges: a
repeated id before an edge without an end. -/
def ofPipeline (p : Pipeline) : Except Flaw (Wiring p.nodes.length) :=
  match firstRepeat ∅ (p.nodes.map (·.id)) with
  | some id => .error (.duplicateNode id)
  | none => return ofLinks (← p.edges.mapM (link p.positions))

end Wiring

end PipeScript
