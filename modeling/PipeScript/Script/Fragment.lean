-- The pieces of a script, one for each node, and what may be missing in them.

namespace PipeScript

namespace Script

/-- What a node becomes in a script. -/
inductive Fragment where
  /-- A simple command; `pipesOnward` says whether its output may go into the next one. -/
  | command (text : String) (pipesOnward : Bool)
  /-- A compound command such as a loop. -/
  | block (text : String)
  /-- The output so far goes to a file. -/
  | redirect (path : String) (append : Bool)
  /-- A comment in the place of something that cannot be written. -/
  | placeholder (text : String)
  deriving DecidableEq, Repr, Inhabited

/-- The text of a fragment alone. A redirect has none. -/
def Fragment.display : Fragment → String
  | .command text _ | .block text | .placeholder text => text
  | .redirect _ _ => ""

/-- Something that is missing in a node. It does not stop the compilation. -/
inductive Warning where
  | unknownCommand (node command : String)
  | missingParameter (node param : String)
  deriving DecidableEq, Repr, Inhabited

def Warning.message : Warning → String
  | .unknownCommand node command =>
    "Node '" ++ node ++ "' uses unknown command '" ++ command ++ "'"
  | .missingParameter node param =>
    "Node '" ++ node ++ "' is missing required parameter '" ++ param ++ "'"

/-- The id of the node that a warning is about. -/
def Warning.node : Warning → String
  | .unknownCommand node _ | .missingParameter node _ => node

end Script

end PipeScript
