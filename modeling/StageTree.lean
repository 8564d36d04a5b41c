import StageTree.Analyzed.Basic
import StageTree.Analyzed.Display
import StageTree.Command.Arguments
import StageTree.Command.Help
import StageTree.Command.Run
import StageTree.Failure
import StageTree.Files
import StageTree.Json.Basic
import StageTree.Json.Literal
import StageTree.Json.Printer
import StageTree.Json.Reader
import StageTree.Main
import StageTree.Nesting
import StageTree.Node
import StageTree.Number.Binary64
import StageTree.Number.Decimal
import StageTree.Number.Shortest
import StageTree.Parsed.Basic
import StageTree.Parsed.Display
import StageTree.Proofs.Alike
import StageTree.Proofs.Command.Asking
import StageTree.Proofs.Command.Courses
import StageTree.Proofs.Command.Destination
import StageTree.Proofs.Command.Effects
import StageTree.Proofs.Command.Independence
import StageTree.Proofs.Command.Routes
import StageTree.Proofs.Command.Troubles
import StageTree.Proofs.Command.Verbosity
import StageTree.Proofs.Depth
import StageTree.Proofs.Erasure
import StageTree.Proofs.Files
import StageTree.Proofs.FirstFailure
import StageTree.Proofs.Height
import StageTree.Proofs.History
import StageTree.Proofs.Induction
import StageTree.Proofs.Json.Grammar
import StageTree.Proofs.Json.LineEnds
import StageTree.Proofs.Json.Lists
import StageTree.Proofs.Json.Nesting
import StageTree.Proofs.Json.Reading
import StageTree.Proofs.Json.Written
import StageTree.Proofs.LastForm
import StageTree.Proofs.Legibility
import StageTree.Proofs.Number.Digits
import StageTree.Proofs.Number.Integers
import StageTree.Proofs.Number.Magnitude
import StageTree.Proofs.Number.Nearest
import StageTree.Proofs.Number.Reading
import StageTree.Proofs.Number.Rounding
import StageTree.Proofs.Number.Text
import StageTree.Proofs.Requests
import StageTree.Proofs.Response
import StageTree.Proofs.Service
import StageTree.Proofs.Service.Status
import StageTree.Proofs.Settings
import StageTree.Proofs.Settings.Meaning
import StageTree.Proofs.Sexpr.Chains
import StageTree.Proofs.Sexpr.Coincidence
import StageTree.Proofs.Sexpr.Numbers
import StageTree.Proofs.Shown
import StageTree.Proofs.SimilarResponses
import StageTree.Proofs.SourceOrder
import StageTree.Proofs.StagesApart
import StageTree.Proofs.Term.Nodes
import StageTree.Proofs.Term.Visits
import StageTree.Proofs.Tree.Data
import StageTree.Proofs.Tree.Hashing
import StageTree.Proofs.Tree.Legible
import StageTree.Proofs.Tree.Preorder
import StageTree.Proofs.Tree.Same
import StageTree.Proofs.Tree.Text
import StageTree.Proofs.Wire.Exact
import StageTree.Proofs.Wire.FirstDefect
import StageTree.Response
import StageTree.Service
import StageTree.Session
import StageTree.Settings.Basic
import StageTree.Settings.Load
import StageTree.Sexpr.Basic
import StageTree.Sexpr.Display
import StageTree.Stage
import StageTree.Term.Basic
import StageTree.Term.Checked
import StageTree.Term.Equality
import StageTree.Term.Literal
import StageTree.Term.Recognise
import StageTree.Text.Blank
import StageTree.Text.Digit
import StageTree.Text.Hex
import StageTree.Text.Newline
import StageTree.Text.Printable
import StageTree.Text.Quoted
import StageTree.Text.Utf8
import StageTree.Trace
import StageTree.Tree.Basic
import StageTree.Tree.Printer
import StageTree.Trouble
import StageTree.VarName
import StageTree.Wire.Analyzed
import StageTree.Wire.Basic
import StageTree.Wire.Parsed
import StageTree.Wire.Sexpr
