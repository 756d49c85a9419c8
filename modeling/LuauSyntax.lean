import LuauSyntax.Number
import LuauSyntax.Number.Hex
import LuauSyntax.Number.Rounding
import LuauSyntax.Number.Shortest
import LuauSyntax.Number.Text
import LuauSyntax.Text.Lines
import LuauSyntax.Text.Quoted
import LuauSyntax.Operator
import LuauSyntax.Tree
import LuauSyntax.Tree.Build
import LuauSyntax.Node
import LuauSyntax.Node.Fold
import LuauSyntax.Node.Fold.Lemmas
import LuauSyntax.Node.Walk
import LuauSyntax.Transform
import LuauSyntax.Transform.Basic
import LuauSyntax.Equality
import LuauSyntax.Hint
import LuauSyntax.Grouping
import LuauSyntax.Canvas
import LuauSyntax.Violation
import LuauSyntax.Doc
import LuauSyntax.Doc.Custom
import LuauSyntax.Doc.Tree
import LuauSyntax.Printer
import LuauSyntax.Json
import LuauSyntax.Json.Scalar
import LuauSyntax.Json.Write
import LuauSyntax.Json.Read
import LuauSyntax.Sample
import LuauSyntax.Session
import LuauSyntax.Proofs.Node.Induction
import LuauSyntax.Proofs.Node.Shown
import LuauSyntax.Proofs.Doc.Tree
import LuauSyntax.Proofs.Doc.Violation
import LuauSyntax.Proofs.FirstViolation
import LuauSyntax.Proofs.Node.Plain
import LuauSyntax.Proofs.Layout.Lines
import LuauSyntax.Proofs.Layout.Texts
import LuauSyntax.Proofs.Layout.Document
import LuauSyntax.Proofs.Layout.Tree
import LuauSyntax.Proofs.Layout.Block
import LuauSyntax.Proofs.Reading.Parser
import LuauSyntax.Proofs.Number.Short
import LuauSyntax.Proofs.Reading.Ungrouped
import LuauSyntax.Proofs.Reading.Spelling
import LuauSyntax.Proofs.Reading.Printed
import LuauSyntax.Proofs.Reading.Operand
import LuauSyntax.Proofs.Reading.RoundTrip
import LuauSyntax.Proofs.Reading.Relations
import LuauSyntax.Proofs.Node.Stops
import LuauSyntax.Proofs.Transform.Telling
import LuauSyntax.Proofs.Transform.Traversal
import LuauSyntax.Proofs.Doc.Balanced
import LuauSyntax.Proofs.Frame.Tree
import LuauSyntax.Proofs.Frame.Visit
import LuauSyntax.Proofs.Symbols.Words
import LuauSyntax.Proofs.Symbols.Own
import LuauSyntax.Proofs.Symbols.Tree
import LuauSyntax.Proofs.Symbols.Order
import LuauSyntax.Proofs.Node.Visit
import LuauSyntax.Proofs.Node.Refill
import LuauSyntax.Proofs.Node.Leaves
import LuauSyntax.Proofs.Transform.Children
import LuauSyntax.Proofs.Transform.Renaming
import LuauSyntax.Proofs.Hint.Edits
import LuauSyntax.Proofs.Hint.Literals
import LuauSyntax.Proofs.Equality.Tree
import LuauSyntax.Proofs.Equality.Laws
import LuauSyntax.Proofs.Hint.Structure
import LuauSyntax.Proofs.Equality.Zeros
import LuauSyntax.Proofs.Doc.Comments
import LuauSyntax.Proofs.Doc.Shedding
import LuauSyntax.Proofs.Hint.Document
import LuauSyntax.Proofs.Hint.Comments
import LuauSyntax.Proofs.Hint.Lines
import LuauSyntax.Proofs.Json.Values
import LuauSyntax.Proofs.Json.RoundTrip
import LuauSyntax.Proofs.Doc.Signals
import LuauSyntax.Proofs.Log.Reached
import LuauSyntax.Proofs.Log.Events
import LuauSyntax.Proofs.Dashes.Scan
import LuauSyntax.Proofs.Dashes.Tree
import LuauSyntax.Proofs.Types.Flattened
import LuauSyntax.Proofs.Types.Reader
import LuauSyntax.Proofs.Types.RoundTrip
import LuauSyntax.Proofs.Reading.Needed
import LuauSyntax.Proofs.Text.Literal
import LuauSyntax.Proofs.Text.Delimited
import LuauSyntax.Proofs.Doc.Within
import LuauSyntax.Proofs.Separator.First
import LuauSyntax.Proofs.Separator.Blocks
import LuauSyntax.Proofs.Number.Nearest
import LuauSyntax.Proofs.Number.Shortest
import LuauSyntax.Proofs.Number.Numeral
import LuauSyntax.Proofs.Number.Rounded
import LuauSyntax.Proofs.Number.ReadBack
import LuauSyntax.Proofs.Canvas.History
