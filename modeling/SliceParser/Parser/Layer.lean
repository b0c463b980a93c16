/-
LAYERS: the wrappers that may be laid around a parser, as data.

`Layer.wrap` lays one around a parser, and `Layer.wrapAll` a list of them, the first of the list outermost.
-/
import SliceParser.Parser.Combinator
import SliceParser.Trace

namespace SliceParser

inductive Layer (E : Type) where
  /-- commit: errors become unrecoverable and are labelled -/
  | context (label : Units)
  | trace (label : Units) (options : TraceOptions E)
  /-- the parser inside runs from an offset on -/
  | skip (offset : Number)

namespace Layer

variable {V κ ω O E : Type} [Position ω] [View V κ ω] [Shown O]

def wrap (errors : ErrorStrategy V E) (parser : ParserT Traced V O E) : Layer E → ParserT Traced V O E
  | .context label => Parser.context label errors parser
  | .trace label options => Parser.trace label options parser
  | .skip offset => Parser.skip offset parser

def wrapAll (errors : ErrorStrategy V E) (parser : ParserT Traced V O E) : List (Layer E) → ParserT Traced V O E
  | [] => parser
  | layer :: inner => layer.wrap errors (wrapAll errors parser inner)

end Layer

end SliceParser
