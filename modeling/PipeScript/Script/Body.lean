-- The body of a script. Fragments are joined into chains of commands; a chain ends with a
-- command that gives no output or with a redirect, and comments never come between a command
-- and what belongs to it.
import PipeScript.Script.Fragment
import PipeScript.Shell.Quote

namespace PipeScript

namespace Script

/-! ## Lines -/

/-- A file that output goes to. -/
structure Redirect where
  path : String
  append : Bool
  deriving DecidableEq, Repr, Inhabited

def Redirect.render (r : Redirect) : String :=
  (if r.append then ">> " else "> ") ++ Shell.doubleQuote r.path

/-- A command of a chain, with the comments that stand between it and the one before. -/
structure Stage where
  comments : List String
  text : String
  deriving DecidableEq, Repr, Inhabited

/-- What a body consists of. -/
inductive Line where
  | comment (text : String)
  /-- Commands piped into one another, and where the output of the last one goes. -/
  | chain (stages : List Stage) (redirect : Option Redirect)
  /-- A redirect with no command in front: the file is created or emptied. -/
  | touch (redirect : Redirect)
  deriving DecidableEq, Repr, Inhabited

/-- A stage behind another one. Comments stand on lines of their own behind the pipe. -/
def Stage.joined (s : Stage) : String :=
  (if s.comments.isEmpty then " | "
    else " |\n" ++ String.join (s.comments.map (· ++ "\n"))) ++ s.text

/-- The text of a chain. -/
def chainText : List Stage → String
  | [] => ""
  | first :: rest => first.text ++ String.join (rest.map Stage.joined)

def Line.render : Line → String
  | .comment text => text
  | .chain stages none => chainText stages
  | .chain stages (some redirect) => chainText stages ++ " " ++ redirect.render
  | .touch redirect => ": " ++ redirect.render

/-! ## Assembly -/

/-- The chain that the next fragment may belong to. Lists have their last element first. -/
structure OpenChain where
  stages : List Stage
  /-- Whether the last command pipes onward. -/
  pipes : Bool
  /-- The comments behind the last command. -/
  comments : List String
  deriving DecidableEq, Repr, Inhabited

/-- A body under construction: the finished lines, the last one first, and the last
chain. -/
structure Assembly where
  lines : List Line
  chain : Option OpenChain
  deriving DecidableEq, Repr, Inhabited

namespace Assembly

def empty : Assembly := ⟨[], none⟩

/-- The lines that a chain and the comments behind it make, the last one first. -/
def chainLines (c : OpenChain) (redirect : Option Redirect) : List Line :=
  c.comments.map .comment ++ [.chain c.stages.reverse redirect]

/-- The finished lines once the chain is closed, the last one first. -/
def closed (a : Assembly) : List Line :=
  match a.chain with
  | none => a.lines
  | some c => chainLines c none ++ a.lines

/-- A command joins a chain that pipes onward, or begins a new one. -/
def pushCommand (a : Assembly) (text : String) (pipes : Bool) : Assembly :=
  match a.chain with
  | some c =>
    if c.pipes then
      { a with chain := some ⟨⟨c.comments.reverse, text⟩ :: c.stages, pipes, []⟩ }
    else ⟨a.closed, some ⟨[⟨[], text⟩], pipes, []⟩⟩
  | none => ⟨a.lines, some ⟨[⟨[], text⟩], pipes, []⟩⟩

/-- A comment waits behind a chain that pipes onward, or stands on its own. -/
def pushComment (a : Assembly) (text : String) : Assembly :=
  match a.chain with
  | some c =>
    if c.pipes then { a with chain := some { c with comments := text :: c.comments } }
    else ⟨.comment text :: a.closed, none⟩
  | none => ⟨.comment text :: a.lines, none⟩

/-- A redirect ends the chain that it belongs to. -/
def pushRedirect (a : Assembly) (redirect : Redirect) : Assembly :=
  match a.chain with
  | some c => ⟨chainLines c (some redirect) ++ a.lines, none⟩
  | none => ⟨.touch redirect :: a.lines, none⟩

/-- One more fragment. -/
def push (a : Assembly) : Fragment → Assembly
  | .command text pipesOnward => a.pushCommand text pipesOnward
  | .block text => a.pushCommand text true
  | .redirect path append => a.pushRedirect ⟨path, append⟩
  | .placeholder text => a.pushComment (Shell.flatten text)

end Assembly

/-- The lines of the body that fragments make. -/
def bodyLines (fragments : List Fragment) : List Line :=
  (fragments.foldl Assembly.push Assembly.empty).closed.reverse

/-- The body that fragments make. -/
def body (fragments : List Fragment) : String :=
  "\n".intercalate ((bodyLines fragments).map Line.render)

end Script

end PipeScript
