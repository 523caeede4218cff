import Pseudocode.Catalog.Basic
import Pseudocode.Catalog.Shelf
import Pseudocode.Catalog.Text
import Pseudocode.Command.Flags
import Pseudocode.Command.Options
import Pseudocode.Command.Run
import Pseudocode.Command.Workspace
import Pseudocode.Decimal.Binary
import Pseudocode.Decimal.Layout
import Pseudocode.Decimal.Literal
import Pseudocode.Decimal.Shortest
import Pseudocode.Fault
import Pseudocode.FileError
import Pseudocode.Machine.Basic
import Pseudocode.Machine.Control
import Pseudocode.Machine.Tick
import Pseudocode.Machine.Engine
import Pseudocode.Main
import Pseudocode.Report
import Pseudocode.Screen.Basic
import Pseudocode.Screen.Block
import Pseudocode.Screen.Item
import Pseudocode.Screen.Pen
import Pseudocode.Screen.Reserve
import Pseudocode.Screen.Table
import Pseudocode.Screen.View
import Pseudocode.Screen.Wrap
import Pseudocode.Session.Basic
import Pseudocode.Session.Dialogue
import Pseudocode.Source
import Pseudocode.Text.Base64
import Pseudocode.Text.Blank
import Pseudocode.Text.Columns
import Pseudocode.Text.Date
import Pseudocode.Text.Grapheme
import Pseudocode.Text.Integer
import Pseudocode.Text.JsonString
import Pseudocode.Text.Lines
import Pseudocode.Text.Piece
import Pseudocode.Text.Printable
import Pseudocode.Text.Quoted
import Pseudocode.Text.Width
import Pseudocode.Token.Basic
import Pseudocode.Token.Scan
import Pseudocode.Tree.Basic
import Pseudocode.Tree.Outline
import Pseudocode.Tree.Parse
import Pseudocode.Value.Basic
import Pseudocode.Value.Env
import Pseudocode.Value.Eval
import Pseudocode.Yaml.Node
import Pseudocode.Yaml.Print
import Pseudocode.Yaml.Scalar
import Pseudocode.Yaml.Scan
import Pseudocode.Yaml.Token
import Pseudocode.Yaml.Value
import Pseudocode.Proofs.Machine.Budget
import Pseudocode.Proofs.Machine.Count
import Pseudocode.Proofs.Machine.Drive
import Pseudocode.Proofs.Machine.Fitting
import Pseudocode.Proofs.Machine.Invariant
import Pseudocode.Proofs.Machine.Replay
import Pseudocode.Proofs.Machine.Stepping
import Pseudocode.Proofs.Machine.Trace
import Pseudocode.Proofs.Machine.Unlined
import Pseudocode.Proofs.Screen.Update
import Pseudocode.Proofs.Session.Dialogue
import Pseudocode.Proofs.Session.Lines
import Pseudocode.Proofs.Source.Lines
import Pseudocode.Proofs.Structured.Exec
import Pseudocode.Proofs.Structured.Refinement
import Pseudocode.Proofs.Token.Rendering
import Pseudocode.Proofs.Tree.FirstError
import Pseudocode.Proofs.Tree.Fitting
import Pseudocode.Proofs.Tree.Grammar
import Pseudocode.Proofs.Tree.Parsing
import Pseudocode.Proofs.Tree.Succession
import Pseudocode.Proofs.Tree.Unlined
import Pseudocode.Proofs.Machine.Calls
import Pseudocode.Proofs.Machine.Language
import Pseudocode.Proofs.Machine.Answers
import Pseudocode.Proofs.Catalog.Lifetime
import Pseudocode.Proofs.Command.Upsert
import Pseudocode.Proofs.Machine.Cursor
import Pseudocode.Proofs.Machine.Failure
import Pseudocode.Proofs.Token.Positions
import Pseudocode.Proofs.Token.Seams
import Pseudocode.Proofs.Token.OpenStrings
import Pseudocode.Proofs.Catalog.Numbers
import Pseudocode.Proofs.Catalog.NewestFirst
import Pseudocode.Proofs.Session.Reset
import Pseudocode.Proofs.Command.Places
import Pseudocode.Proofs.Command.Failures
import Pseudocode.Proofs.Decimal.Rounding
import Pseudocode.Proofs.Decimal.Doubles
import Pseudocode.Proofs.Decimal.Scaled
import Pseudocode.Proofs.Decimal.Shortest
import Pseudocode.Proofs.Decimal.Spelling
import Pseudocode.Proofs.Value.Reading
import Pseudocode.Proofs.Decimal.Writing
import Pseudocode.Proofs.Value.Printing
import Pseudocode.Proofs.Fault.Mention
import Pseudocode.Proofs.Text.ByteOrder
import Pseudocode.Proofs.Value.Bindings
import Pseudocode.Proofs.Command.Precedence
import Pseudocode.Proofs.Tree.Walk
import Pseudocode.Proofs.Engine.Lockstep
import Pseudocode.Proofs.Engine.Refinement
import Pseudocode.Proofs.Engine.Invariant
import Pseudocode.Proofs.Engine.Termination
