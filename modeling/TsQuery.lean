import TsQuery.CommandLine.Event
import TsQuery.CommandLine.Invocation
import TsQuery.CommandLine.Page
import TsQuery.CommandLine.Piece
import TsQuery.CommandLine.Problem
import TsQuery.CommandLine.Run
import TsQuery.Disk.Access
import TsQuery.Disk.Basic
import TsQuery.Disk.Path
import TsQuery.Json.Basic
import TsQuery.Json.Display
import TsQuery.Json.Nesting
import TsQuery.Json.Read
import TsQuery.Json.Write
import TsQuery.Log
import TsQuery.Main
import TsQuery.Number.Binary64
import TsQuery.Number.Numeral
import TsQuery.Number.Shortest
import TsQuery.Proofs.Assembly.Invariant
import TsQuery.Proofs.Tree.Basic
import TsQuery.Proofs.Tree.Canonical
import TsQuery.Proofs.Tree.Value
import TsQuery.Query.Assembly
import TsQuery.Query.Clean
import TsQuery.Query.Compile
import TsQuery.Query.Descent
import TsQuery.Query.Listing
import TsQuery.Query.Refusal
import TsQuery.Query.Render
import TsQuery.Query.Scan
import TsQuery.Query.Token
import TsQuery.Query.Tree
import TsQuery.Query.Vocabulary
import TsQuery.Server
import TsQuery.Settings.Basic
import TsQuery.Settings.Environment
import TsQuery.Settings.File
import TsQuery.Settings.Profile
import TsQuery.Text.Alphanumeric
import TsQuery.Text.Basic
import TsQuery.Text.CodePoint
import TsQuery.Text.Digit
import TsQuery.Text.LowerCase
import TsQuery.Text.LowerCase.Table
import TsQuery.Text.Quoted
import TsQuery.Text.Replace
import TsQuery.Text.Utf8
import TsQuery.Tool.Basic
import TsQuery.Tool.Call
import TsQuery.Proofs.Assembly.Leaves
import TsQuery.Proofs.Assembly.Grammar
import TsQuery.Proofs.Notation.Reader
import TsQuery.Proofs.Notation.Symbols
import TsQuery.Proofs.Notation.RoundTrip
import TsQuery.Proofs.Notation.Meaning
import TsQuery.Proofs.Compile.Denotation
import TsQuery.Proofs.Compile.Coverage
import TsQuery.Proofs.Tree.Polarity
import TsQuery.Proofs.Assembly.Polarity
import TsQuery.Proofs.Scan.Vocabulary
import TsQuery.Proofs.Compile.Polarity
import TsQuery.Proofs.Scan.Clean
import TsQuery.Proofs.Scan.OnePass
import TsQuery.Proofs.Text.Replace
import TsQuery.Proofs.Tree.Settled
import TsQuery.Proofs.Notation.Render
import TsQuery.Proofs.Notation.Pieces
import TsQuery.Proofs.Compile.Shape
import TsQuery.Proofs.Tree.Depth
import TsQuery.Proofs.Notation.Nesting
import TsQuery.Proofs.Assembly.Content
import TsQuery.Proofs.Scan.Cut
import TsQuery.Proofs.Scan.Places
import TsQuery.Proofs.Compile.Respelling
import TsQuery.Proofs.Text.Runs
import TsQuery.Proofs.Scan.Symbols
import TsQuery.Proofs.Assembly.Nested
import TsQuery.Proofs.Compile.Derivation
import TsQuery.Proofs.Compile.Recompile
import TsQuery.Proofs.Number.Rounding
import TsQuery.Proofs.Number.Shortest
import TsQuery.Proofs.Json.Taken
import TsQuery.Proofs.Json.Number
import TsQuery.Proofs.Json.WrittenNumber
import TsQuery.Proofs.Json.Strings
import TsQuery.Proofs.Json.RoundTrip
import TsQuery.Proofs.Json.Reading
import TsQuery.Proofs.Json.Grammar
import TsQuery.Proofs.Json.Standard
import TsQuery.Proofs.Json.Nesting
import TsQuery.Proofs.Tool.Reply
import TsQuery.Proofs.Settings.InForce
import TsQuery.Proofs.CommandLine.Arguments
import TsQuery.Proofs.CommandLine.Printed
import TsQuery.Proofs.CommandLine.OnQuery
import TsQuery.Proofs.Disk.Walk
import TsQuery.Proofs.Disk.MakeFolders
import TsQuery.Proofs.Settings.Storage
import TsQuery.Proofs.Settings.Encoding
import TsQuery.Proofs.Settings.Cell
import TsQuery.Proofs.CommandLine.Stored
import TsQuery.Proofs.Assembly.Tolerance
import TsQuery.Proofs.Assembly.Stray
import TsQuery.Proofs.Assembly.Limit
import TsQuery.Proofs.Assembly.Bounds
import TsQuery.Proofs.Assembly.Step
import TsQuery.Proofs.Notation.Listing
import TsQuery.Proofs.Scan.Words
import TsQuery.Proofs.Settings.Complaints
import TsQuery.Proofs.Settings.Update
import TsQuery.Proofs.Text.LowerCase
import TsQuery.Proofs.Text.Pieces
import TsQuery.Proofs.Tree.Height
import TsQuery.Proofs.Tree.Width
import TsQuery.Proofs.Assembly.Width
import TsQuery.Proofs.Compile.Length
import TsQuery.Proofs.Notation.Marks
import TsQuery.Proofs.Disk.Way
import TsQuery.Proofs.Settings.RoundTrip
import TsQuery.Proofs.Settings.Fresh
import TsQuery.Proofs.CommandLine.Reading
import TsQuery.Proofs.CommandLine.Numerals
import TsQuery.Proofs.Descent.Standing
import TsQuery.Proofs.Descent.Step
import TsQuery.Proofs.Descent.Run
