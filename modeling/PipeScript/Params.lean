-- The parameter values of a command: a map from names to JSON values. The values are stored in a
-- hash table, and tables with the same entries are the same map. So whatever goes through the
-- entries has to come out the same in any order.
import PipeScript.Json.Canonical
import PipeScript.Json.Reader
import PipeScript.Table

namespace PipeScript

/-! ## Stored values -/

/-- A table of parameter values. Objects inside the values have their keys in order. -/
structure Params.Stored extends Table Json where
  canonical : Json.canonicalMembers entries = true
  deriving DecidableEq

namespace Params.Stored

def empty : Stored := ⟨.empty, rfl⟩

/-- Gives a name a value, in place of the one that it has. -/
def insert (s : Stored) (name : String) (value : Json) : Stored where
  toTable := s.toTable.insert name value.normal
  canonical := by
    rw [Json.canonicalMembers_iff]
    intro entry hentry
    rcases mem_putBy hentry with rfl | hold
    · exact Json.canonical_normal value
    · exact (Json.canonicalMembers_iff _).mp s.canonical entry hold

/-- The table that names and values are put into one after the other. -/
def ofList (pairs : List (String × Json)) : Stored :=
  pairs.foldl (fun s pair => s.insert pair.1 pair.2) empty

/-- The entries in the order of their names: each goes to its place in a sorted map as it
comes. -/
def sorted (s : Stored) : List (String × Json) := Json.sortMembers s.entries

/-- Tables with the same entries, which may come in another order. -/
instance setoid : Setoid Stored where
  r s s' := s.entries.Perm s'.entries
  iseqv := ⟨fun _ => .refl _, .symm, .trans⟩

instance (s s' : Stored) : Decidable (s ≈ s') :=
  inferInstanceAs (Decidable (s.entries.Perm s'.entries))

theorem sorted_congr {s s' : Stored} (h : s ≈ s') : s.sorted = s'.sorted :=
  Json.sortMembers_of_perm h s.distinct

end Params.Stored

/-! ## The map -/

/-- Parameter values by name. -/
def Params : Type := Quotient Params.Stored.setoid

namespace Params

instance : DecidableEq Params := inferInstanceAs (DecidableEq (Quotient Stored.setoid))

/-- The map that a table holds. -/
def ofStored (s : Stored) : Params := Quotient.mk _ s

/-- What is found out from a table of the map, if any other table gives the same. -/
def lift {β : Type} (f : Stored → β) (h : ∀ s s', s ≈ s' → f s = f s') (params : Params) : β :=
  Quotient.lift f h params

/-- The map of a list of names and values; of several values for one name the last one
stays. -/
def ofList (pairs : List (String × Json)) : Params := ofStored (.ofList pairs)

def empty : Params := ofList []

instance : Inhabited Params := ⟨empty⟩

def get? (params : Params) (name : String) : Option Json :=
  params.lift (·.get? name) fun _ _ h => Table.get?_of_perm h name

/-- The entries in the order of their names. -/
def sorted (params : Params) : List (String × Json) :=
  params.lift Stored.sorted fun _ _ => Stored.sorted_congr

/-- The text of a parameter: a string that is not empty, or a number. -/
def text? (params : Params) (name : String) : Option String :=
  match params.get? name with
  | some (.string s) => if s.isEmpty then none else some s
  | some (.number n) => some n.text
  | _ => none

/-- Whether a switch is on: the value true, or the word. -/
def flag (params : Params) (name : String) : Bool :=
  match params.get? name with
  | some (.bool b) => b
  | some (.string s) => s = "true"
  | _ => false

/-- Parameter values in a document. -/
def reader : Reader Params := fun room document =>
  return ofList (← Reader.members room document)

/-- Parameter values in a JSON text. -/
def ofJsonText (text : String) : Except ReadError Params := Reader.run reader text

end Params

end PipeScript
