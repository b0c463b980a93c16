import SliceParser.Number.Basic
import SliceParser.Number.Decimal
import SliceParser.Unicode.Utf16
import SliceParser.Unicode.Utf8
import SliceParser.Unicode.LowerCase.Table
import SliceParser.Unicode.LowerCase
import SliceParser.Json.Quoted
import SliceParser.ErrorKind
import SliceParser.Outcome
import SliceParser.View.Span
import SliceParser.View.Basic
import SliceParser.View.Text
import SliceParser.View.Bytes
import SliceParser.ErrorStrategy.Basic
import SliceParser.ErrorStrategy.Render
import SliceParser.Parser.Basic
import SliceParser.Parser.Primitive
import SliceParser.Parser.Combinator
import SliceParser.Parser.Laws
import SliceParser.Parser.ElementClass
import SliceParser.Config.Value
import SliceParser.Config.Environment
import SliceParser.Config.Settings
import SliceParser.Trace
import SliceParser.Parser.Layer
import SliceParser.Proofs.Number.Exact
import SliceParser.Proofs.Parser.Laws
import SliceParser.Proofs.View.Search
import SliceParser.Proofs.View.Scans
import SliceParser.Proofs.Primitive.Answer
import SliceParser.Proofs.Primitive.Contract
import SliceParser.Proofs.Primitive.Content
import SliceParser.Proofs.ErrorStrategy.Related
import SliceParser.Proofs.Layer.Strategy
import SliceParser.Proofs.Primitive.WholeElements
import SliceParser.Proofs.Config.History
import SliceParser.Proofs.Config.Inherited
import SliceParser.Proofs.Layer.Trace
import SliceParser.Proofs.Config.Reads
import SliceParser.Proofs.Parser.Exact
import SliceParser.Proofs.Unicode.WellFormed
import SliceParser.Proofs.Unicode.Utf8
import SliceParser.Proofs.Unicode.Recoding
import SliceParser.Proofs.Primitive.Paired
import SliceParser.Proofs.Primitive.Encoded
import SliceParser.Proofs.Unicode.Ascii
import SliceParser.Proofs.Primitive.Ascii
import SliceParser.Proofs.Parser.Faults
import SliceParser.Proofs.View.Window
import SliceParser.Proofs.View.Coordinates
import SliceParser.Proofs.Primitive.Obtained
import SliceParser.Proofs.Layer.Commit
import SliceParser.Proofs.Layer.Transparent
import SliceParser.Proofs.Primitive.LongestRun
import SliceParser.Proofs.Primitive.BoundedRun
import SliceParser.Proofs.Primitive.Until
import SliceParser.Proofs.Parser.TruthfulOffsets
import SliceParser.Proofs.View.PartialPair
import SliceParser.Proofs.Primitive.CaseAside
import SliceParser.Proofs.View.Continuation
import SliceParser.Proofs.Primitive.Continuation
import SliceParser.Proofs.Primitive.Counts
import SliceParser.Proofs.Primitive.OpenBounds
import SliceParser.Proofs.Primitive.Tokens
import SliceParser.Proofs.ErrorStrategy.Positions
import SliceParser.Proofs.Json.Reading
import SliceParser.Proofs.Layer.Preview
import SliceParser.Proofs.Config.Paths
import SliceParser.Proofs.Config.Precedence
import SliceParser.Proofs.Config.TraceWidth
import SliceParser.Proofs.Config.Alike
import SliceParser.Proofs.Config.Order
import SliceParser.Proofs.Config.Layering
import SliceParser.Proofs.Config.Merge
import SliceParser.Proofs.Config.Variables
import SliceParser.Proofs.Config.Writes
