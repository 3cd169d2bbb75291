-- A tree of files, and what reading and writing by a path does to it. A path can fail in several
-- ways; the first step of the way that cannot be taken tells which.

namespace PipeScript

/-- Why a file can be neither read nor written. -/
inductive FileError where
  /-- The path holds a character that no name can hold. -/
  | badPath
  | missing
  | notDirectory
  | isDirectory
  | nameTooLong
  deriving DecidableEq, Repr, Inhabited

def FileError.message : FileError → String
  | .badPath => "file name contained an unexpected NUL byte"
  | .missing => "No such file or directory (os error 2)"
  | .notDirectory => "Not a directory (os error 20)"
  | .isDirectory => "Is a directory (os error 21)"
  | .nameTooLong => "File name too long (os error 36)"

structure File where
  content : String
  executable : Bool := false
  deriving DecidableEq, Repr, Inhabited

/-- Where something is: the names on the way to it, the innermost first. -/
abbrev Location := List String

/-- Files by their location. A location is a directory if a file or the working directory is
below it. -/
structure Files where
  /-- The working directory. -/
  here : Location
  entries : List (Location × File)
  deriving DecidableEq, Repr, Inhabited

namespace Files

/-! ## Looking around -/

def file? (files : Files) (location : Location) : Option File := files.entries.lookup location

/-- Whether a location is a directory. -/
def isDirectory (files : Files) (location : Location) : Bool :=
  location.isSuffixOf files.here
    || files.entries.any fun entry => location.isSuffixOf entry.1.tail

/-- Puts a file in place of what was there. -/
def put (files : Files) (location : Location) (file : File) : Files :=
  { files with
    entries := (location, file) :: files.entries.filter fun entry => entry.1 ≠ location }

/-! ## Following a path -/

/-- The most bytes of a name. -/
def longestName : Nat := 255

/-- The most bytes of a path. -/
def longestPath : Nat := 4095

/-- Whether no file can have this name. -/
def tooLong (name : String) : Bool := longestName < name.utf8ByteSize

/-- The names of a path. Slashes in a row count as one. -/
def names (path : String) : List String :=
  (path.splitOn "/").filter fun name => !name.isEmpty

/-- The directory that one name leads to. -/
def enter (files : Files) (location : Location) (name : String) : Except FileError Location :=
  if name = "." then .ok location
  else if name = ".." then .ok location.tail
  else if tooLong name then .error .nameTooLong
  else if files.isDirectory (name :: location) then .ok (name :: location)
  else if (files.file? (name :: location)).isSome then .error .notDirectory
  else .error .missing

/-- What a path ends in. -/
inductive Target where
  | directory
  /-- A name in a directory, which may be free. `slash` tells that a slash follows it. -/
  | entry (directory : Location) (name : String) (slash : Bool)
  deriving DecidableEq, Repr

/-- Follows a path up to its last name. -/
def target (files : Files) (path : String) : Except FileError Target := do
  if path.contains '\x00' then throw .badPath
  else if path.isEmpty then throw .missing
  else if longestPath < path.utf8ByteSize then throw .nameTooLong
  else
    let start := if path.startsWith "/" then [] else files.here
    match (names path).reverse with
    | [] => return .directory
    | last :: before =>
      let location ← before.reverse.foldlM files.enter start
      if last = "." ∨ last = ".." then return .directory
      else return .entry location last (path.endsWith "/")

/-! ## Reading and writing -/

/-- The text of a file. -/
def read (files : Files) (path : String) : Except FileError String := do
  match ← files.target path with
  | .directory => throw .isDirectory
  | .entry directory name slash =>
    if tooLong name then throw .nameTooLong
    else if files.isDirectory (name :: directory) then throw .isDirectory
    else match files.file? (name :: directory) with
      | none => throw .missing
      | some file => if slash then throw .notDirectory else return file.content

/-- Writes a text that can be run. The directory must be there; a file that was there is lost. -/
def writeExecutable (files : Files) (path content : String) : Except FileError Files := do
  match ← files.target path with
  | .directory => throw .isDirectory
  | .entry directory name slash =>
    if slash then throw .isDirectory
    else if tooLong name then throw .nameTooLong
    else if files.isDirectory (name :: directory) then throw .isDirectory
    else return files.put (name :: directory) { content, executable := true }

end Files

end PipeScript
