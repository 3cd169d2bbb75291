-- What can be wrong with the shape of a pipeline, and the words for it.

namespace PipeScript

/-- A defect in the shape of a pipeline. -/
inductive Flaw where
  | noRoot
  | multipleRoots (roots : List String)
  /-- The path starts and ends with the same node. -/
  | cycle (path : List String)
  | disconnected (root : String) (unreachable : List String)
  | branching (node : String) (successors : List String)
  | danglingEdge (source target : String)
  | duplicateNode (node : String)
  deriving DecidableEq, Repr, Inhabited

namespace Flaw

/-- The words for a flaw. -/
def message : Flaw → String
  | .noRoot => "Invalid pipeline: no start node"
  | .multipleRoots roots =>
    "Invalid pipeline: multiple start nodes (" ++ ", ".intercalate roots ++ ")"
  | .cycle path => "Invalid pipeline: cycle detected (" ++ " -> ".intercalate path ++ ")"
  | .disconnected root unreachable =>
    "Disconnected pipeline: " ++ ", ".intercalate unreachable
      ++ " not reachable from start node '" ++ root ++ "'"
  | .branching node successors =>
    "Unsupported branching: node '" ++ node ++ "' has "
      ++ String.ofList (Nat.toDigits 10 successors.length) ++ " outgoing connections ("
      ++ ", ".intercalate successors ++ ")"
  | .danglingEdge source target =>
    "Invalid pipeline: connection from '" ++ source ++ "' references missing node '" ++ target
      ++ "'"
  | .duplicateNode node => "Invalid pipeline: node id '" ++ node ++ "' is used more than once"

/-- The comment that stands in the place of a script. -/
def diagnostic (flaw : Flaw) : String := "# ❌ " ++ flaw.message

end Flaw

end PipeScript
