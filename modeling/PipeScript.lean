import PipeScript.Canvas.Basic
import PipeScript.Canvas.Format
import PipeScript.Cli.Arguments
import PipeScript.Cli.Run
import PipeScript.Command.Catalog
import PipeScript.Command.Definition
import PipeScript.Command.Registry
import PipeScript.Compiler
import PipeScript.Files
import PipeScript.Json.Canonical
import PipeScript.Json.Document
import PipeScript.Json.Numeral
import PipeScript.Json.Printer
import PipeScript.Json.ReadError
import PipeScript.Json.Reader
import PipeScript.Json.Tagged
import PipeScript.Json.Token
import PipeScript.Json.Value
import PipeScript.Main
import PipeScript.Number.Binary64
import PipeScript.Number.Shortest
import PipeScript.Params
import PipeScript.Pipeline.Basic
import PipeScript.Pipeline.Check
import PipeScript.Pipeline.Cycle
import PipeScript.Pipeline.Flaw
import PipeScript.Pipeline.Format
import PipeScript.Pipeline.Traversal
import PipeScript.Pipeline.Wiring
import PipeScript.Proofs.Canvas.RoundTrip
import PipeScript.Proofs.Compiler.Aliases
import PipeScript.Proofs.Compiler.Diagnostics
import PipeScript.Proofs.Compiler.Rearrangements
import PipeScript.Proofs.Json.Documents
import PipeScript.Proofs.Json.Readers
import PipeScript.Proofs.Json.Scanning
import PipeScript.Proofs.Pipeline.CycleSearch
import PipeScript.Proofs.Pipeline.Lines
import PipeScript.Proofs.Pipeline.Links
import PipeScript.Proofs.Pipeline.Refusals
import PipeScript.Proofs.Pipeline.Verdicts
import PipeScript.Proofs.Pipeline.Visits
import PipeScript.Proofs.Pipeline.Ways
import PipeScript.Proofs.Script.Argv
import PipeScript.Proofs.Script.Tokens
import PipeScript.Proofs.Shell.Lexer
import PipeScript.Proofs.Shell.Quoting
import PipeScript.Script.Body
import PipeScript.Script.Builder
import PipeScript.Script.Fragment
import PipeScript.Script.Generate
import PipeScript.Script.Header
import PipeScript.Script.Settings
import PipeScript.Shell.Quote
import PipeScript.Storage
import PipeScript.Table
import PipeScript.Text.Blank
import PipeScript.Text.Invisible
import PipeScript.Text.Shown
import PipeScript.Proofs.Params
import PipeScript.Proofs.Json.TaggedRecords
import PipeScript.Proofs.Pipeline.RoundTrip
import PipeScript.Proofs.Compiler.Twins
import PipeScript.Proofs.Compiler.Omissions
import PipeScript.Proofs.Pipeline.Orders
import PipeScript.Proofs.Shell.Words
import PipeScript.Proofs.Script.Redirects
import PipeScript.Proofs.Pipeline.Reach
import PipeScript.Proofs.Script.Header
import PipeScript.Proofs.Script.Templates
import PipeScript.Proofs.Command.Slots
import PipeScript.Proofs.Command.Palette
import PipeScript.Proofs.Script.Required
import PipeScript.Proofs.Json.Numerals
import PipeScript.Proofs.Json.Floats
import PipeScript.Proofs.Json.Grammar
import PipeScript.Proofs.Script.Spellings
import PipeScript.Proofs.Json.KeyOrder
import PipeScript.Proofs.Compiler.Parameters
import PipeScript.Proofs.Pipeline.Loops
import PipeScript.Proofs.Pipeline.Recursion
import PipeScript.Proofs.Pipeline.Colours
