import Scriptlet.Calendar
import Scriptlet.CommandLine
import Scriptlet.CommandLine.Flag
import Scriptlet.CommandLine.Invocation
import Scriptlet.CommandLine.Outcome
import Scriptlet.CommandLine.Word
import Scriptlet.Diagnostic
import Scriptlet.Diagnostic.Drawing
import Scriptlet.Diagnostic.Location
import Scriptlet.Digest.Sha256
import Scriptlet.Document.Cursor
import Scriptlet.Document.Datum
import Scriptlet.Document.Encoding
import Scriptlet.Document.Fields
import Scriptlet.Document.Lexer
import Scriptlet.Document.Node
import Scriptlet.Document.Property
import Scriptlet.Document.Reader
import Scriptlet.Document.Scalar
import Scriptlet.Document.Token
import Scriptlet.Fault
import Scriptlet.Files
import Scriptlet.Http.Condition
import Scriptlet.Http.Message
import Scriptlet.Http.Range
import Scriptlet.Http.RequestTarget
import Scriptlet.Http.Route
import Scriptlet.Http.Timestamp
import Scriptlet.Log
import Scriptlet.Machine
import Scriptlet.Machine.Builtin
import Scriptlet.Machine.Execution
import Scriptlet.Machine.Operator
import Scriptlet.Machine.Scope
import Scriptlet.Main
import Scriptlet.Number.Binary64
import Scriptlet.Number.Duration
import Scriptlet.Number.Integer
import Scriptlet.Number.Shortest
import Scriptlet.Payload
import Scriptlet.Payload.Reader
import Scriptlet.Playground
import Scriptlet.Playground.Gate
import Scriptlet.Playground.Service
import Scriptlet.Program
import Scriptlet.Program.Nodes
import Scriptlet.Program.Outline
import Scriptlet.Program.Parser
import Scriptlet.Proofs.Ends
import Scriptlet.Proofs.Grammar
import Scriptlet.Proofs.Grammar.Soundness.Expression
import Scriptlet.Proofs.Grammar.Soundness.Statement
import Scriptlet.Proofs.Grammar.Steps
import Scriptlet.Proofs.Machine.Frame
import Scriptlet.Proofs.Machine.Lifetime
import Scriptlet.Proofs.Machine.Moment
import Scriptlet.Proofs.Machine.Soundness
import Scriptlet.Proofs.Program.Placement
import Scriptlet.Proofs.Runner.Reading
import Scriptlet.Proofs.Runner.Session
import Scriptlet.Proofs.Runner.Transparency
import Scriptlet.Proofs.Runner.Verdict
import Scriptlet.Proofs.Value.Typed
import Scriptlet.Runner
import Scriptlet.Script
import Scriptlet.Settings
import Scriptlet.Settings.Environment
import Scriptlet.Site
import Scriptlet.Site.ContentType
import Scriptlet.Span
import Scriptlet.Store
import Scriptlet.Store.Recent
import Scriptlet.Stream.Input
import Scriptlet.Stream.Sink
import Scriptlet.Text.Base64
import Scriptlet.Text.Blank
import Scriptlet.Text.Bytes
import Scriptlet.Text.Case
import Scriptlet.Text.Cluster
import Scriptlet.Text.Digit
import Scriptlet.Text.Glyph
import Scriptlet.Text.Joining
import Scriptlet.Text.Letter
import Scriptlet.Text.Printable
import Scriptlet.Text.Quoted
import Scriptlet.Text.Ranges
import Scriptlet.Text.Width
import Scriptlet.Token
import Scriptlet.Token.Lexer
import Scriptlet.Type
import Scriptlet.Value
import Scriptlet.Proofs.Grammar.Completeness.Expression
import Scriptlet.Proofs.Grammar.Completeness.Statement
import Scriptlet.Proofs.Grammar.Recognition
import Scriptlet.Proofs.Machine.Agreement
import Scriptlet.Proofs.Machine.Truncation
import Scriptlet.Proofs.Machine.Termination
import Scriptlet.Proofs.Parallel.Expression
import Scriptlet.Proofs.Parallel.Statement
import Scriptlet.Proofs.Parallel.Parsing
import Scriptlet.Proofs.Lexing.Glyphs
import Scriptlet.Proofs.Lexing.Offsets
import Scriptlet.Proofs.Machine.Naturality
import Scriptlet.Proofs.Lexing.Alike
import Scriptlet.Proofs.Lexing.Layout
import Scriptlet.Proofs.Lexing.Spacing
import Scriptlet.Proofs.Source.Insignificance
import Scriptlet.Proofs.Machine.Sequence
import Scriptlet.Proofs.Source.Concatenation
import Scriptlet.Proofs.Store.History
import Scriptlet.Proofs.Lexing.Spelling
import Scriptlet.Proofs.Value.Literal
import Scriptlet.Proofs.Source.Echo
import Scriptlet.Proofs.Lexing.Boundaries
import Scriptlet.Proofs.Lexing.Pointing
import Scriptlet.Proofs.Program.Places
import Scriptlet.Proofs.Machine.Places
import Scriptlet.Proofs.Diagnostic.Marker
import Scriptlet.Proofs.Runner.Pointing
import Scriptlet.Proofs.Stream.Bound
import Scriptlet.Proofs.Machine.Bound
import Scriptlet.Proofs.Runner.Bound
import Scriptlet.Proofs.Runner.Ending
import Scriptlet.Proofs.Playground.Containment
import Scriptlet.Proofs.Machine.Evaluation
import Scriptlet.Proofs.Machine.Globals
import Scriptlet.Proofs.Machine.Hints
import Scriptlet.Proofs.Machine.Operands
import Scriptlet.Proofs.Machine.Element
import Scriptlet.Proofs.Machine.Narrowing
import Scriptlet.Proofs.Machine.Ticks
import Scriptlet.Proofs.Machine.Cancellation
import Scriptlet.Proofs.Settings.Sources
import Scriptlet.Proofs.Settings.Precedence
import Scriptlet.Proofs.Machine.Arithmetic
import Scriptlet.Proofs.Value.Order
import Scriptlet.Proofs.Machine.Counter
import Scriptlet.Proofs.Machine.Coupling
import Scriptlet.Proofs.Machine.Isolation
import Scriptlet.Proofs.Machine.Annotation
import Scriptlet.Proofs.Text.Encoding
import Scriptlet.Proofs.Lexing.Writing
import Scriptlet.Proofs.Lexing.Respelling
import Scriptlet.Proofs.Lexing.Tiling
import Scriptlet.Proofs.Program.Nesting
import Scriptlet.Proofs.Program.Assembly
import Scriptlet.Proofs.Source.Nesting
import Scriptlet.Proofs.Program.Cursor
import Scriptlet.Proofs.Program.Totality
import Scriptlet.Proofs.Diagnostic.Position
import Scriptlet.Proofs.Payload.Escaping
import Scriptlet.Proofs.Playground.Size
import Scriptlet.Proofs.Text.Parts
import Scriptlet.Proofs.Program.Legibility
import Scriptlet.Proofs.Machine.Legibility
import Scriptlet.Proofs.Machine.Text
import Scriptlet.Proofs.Text.Quoting
import Scriptlet.Proofs.Text.Splitting
import Scriptlet.Proofs.Program.Headings
import Scriptlet.Proofs.Program.Forest
import Scriptlet.Proofs.Program.Outline
import Scriptlet.Proofs.Machine.Depth
import Scriptlet.Proofs.Playground.Buckets
import Scriptlet.Proofs.Playground.Address
import Scriptlet.Proofs.Playground.Admission
import Scriptlet.Proofs.Playground.Contention
