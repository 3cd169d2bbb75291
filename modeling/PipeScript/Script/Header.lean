-- A whole script: a header from the settings, an empty line, and the body.
import PipeScript.Script.Settings
import PipeScript.Shell.Quote
import PipeScript.Text.Blank

namespace PipeScript

namespace Script

/-- A comment with a label, unless there is nothing to tell. -/
def remark (label value : String) : List String :=
  if Text.isBlank value then [] else ["# " ++ label ++ ": " ++ Shell.flatten value]

/-- The letters of the options that are on. -/
def optionLetters (s : Settings) : List Char :=
  (if s.exitOnError then ['e'] else []) ++ (if s.exitOnUnset then ['u'] else [])
    ++ (if s.trace then ['x'] else [])

/-- The line that turns options on, if there are any. -/
def optionLine (letters : List Char) : List String :=
  if letters.isEmpty then [] else ["set -" ++ String.ofList letters]

/-- The lines of the header. -/
def header (s : Settings) : List String :=
  ["#!/bin/" ++ s.interpreter.name] ++ remark "Description" s.description
    ++ remark "Author" s.author ++ remark "Version" s.version
    ++ optionLine (optionLetters s) ++ (if s.pipefail then ["set -o pipefail"] else [])

/-- The script of a body. -/
def wrap (body : String) (s : Settings) : String :=
  "\n".intercalate (header s ++ ["", body]) ++ "\n"

end Script

end PipeScript
