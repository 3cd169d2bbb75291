-- Where scripts are read from and saved to. The work that needs files is written once against
-- this interface and runs on a tree of files as well as on a disk.
import PipeScript.Compiler
import PipeScript.Files

namespace PipeScript

/-- A place for files. A failure is told in words. -/
structure Storage (m : Type → Type) where
  read : (path : String) → m (Except String String)
  /-- Writes a text that can be run. -/
  writeExecutable : (path content : String) → m (Except String Unit)

/-- The storage that is a tree of files. -/
def Files.storage : Storage (StateM Files) where
  read path files := (((files.read path).mapError FileError.message), files)
  writeExecutable path content files :=
    match files.writeExecutable path content with
    | .ok written => (.ok (), written)
    | .error e => (.error e.message, files)

/-- A script could not be written. -/
structure WriteError where
  path : String
  reason : String
  deriving DecidableEq, Repr, Inhabited

def WriteError.message (e : WriteError) : String :=
  "Could not write script to '" ++ e.path ++ "': " ++ e.reason

/-- Writes the script, ready to run. -/
def Compiled.save {m : Type → Type} [Monad m] (script : Compiled) (storage : Storage m)
    (path : String) : m (Except WriteError Unit) := do
  match ← storage.writeExecutable path script.text with
  | .ok () => return .ok ()
  | .error reason => return .error { path, reason }

end PipeScript
