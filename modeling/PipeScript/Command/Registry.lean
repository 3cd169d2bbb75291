-- The table of known commands. Commands are listed in the order in which their ids were first
-- registered, and an index leads from an id to the slot of its command in the list. Registering
-- an id again replaces the command in its slot.
import PipeScript.Command.Definition
import PipeScript.Table

namespace PipeScript

namespace Command

/-- The known commands. -/
structure Registry where
  /-- The commands in order. -/
  commands : List Definition
  /-- The slot of the command with an id. -/
  index : Table Nat
  deriving DecidableEq, Repr, Inhabited

namespace Registry

def empty : Registry := ⟨[], .empty⟩

/-- Makes a command known, in the slot that its id has or in a new one at the end. -/
def register (r : Registry) (d : Definition) : Registry :=
  match r.index.get? d.id with
  | some slot => { r with commands := r.commands.set slot d }
  | none => ⟨r.commands ++ [d], r.index.insert d.id r.commands.length⟩

/-- The registry of a list of commands. -/
def ofList (commands : List Definition) : Registry := commands.foldl register empty

/-- The command with an id. The index is trusted: whatever stands in the slot is the answer. -/
def lookup (r : Registry) (id : String) : Option Definition :=
  (r.index.get? id).map fun slot => r.commands[slot]!

def contains (r : Registry) (id : String) : Bool := r.index.contains id

/-- Makes a known command known under one more id, if there is such a command. -/
def addAlias? (r : Registry) (name existing : String) : Option Registry :=
  (r.lookup existing).map fun d => r.register { d with id := name }

/-- The ids in order. -/
def ids (r : Registry) : List String := r.commands.map (·.id)

def size (r : Registry) : Nat := r.commands.length

/-- The commands of a category, in order. -/
def inCategory (r : Registry) (category : Category) : List Definition :=
  r.commands.filter (·.category = category)

/-- The commands by category; a category without commands is left out. -/
def byCategory (r : Registry) : List (Category × List Definition) :=
  (Category.all.map fun category => (category, r.inCategory category)).filter
    fun group => !group.2.isEmpty

end Registry

end Command

end PipeScript
