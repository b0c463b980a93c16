/-
COMBINATORS: parsers made of parsers, in any monad that has faults.

- `context` is a commit point: it turns every error of the parser inside into an unrecoverable one and labels it at
  the view it was called with.
- `skip` runs a parser from an offset on. `raise` has no outcome at all, only a fault.
-/
import SliceParser.Parser.Basic

namespace SliceParser.Parser

variable {m : Type → Type} [Monad m] {V O E : Type}

def context (label : Units) (errors : ErrorStrategy V E) (parser : ParserT m V O E) : ParserT m V O E :=
  fun input => do
    match ← parser input with
    | .failed (.recoverable e) => return .failure (errors.addContext input label e)
    | .failed (.unrecoverable e) => return .failure (errors.addContext input label e)
    | .failed (.incomplete needed) => return .failed (.incomplete needed)
    | .success rest value => return .success rest value

variable [MonadExceptOf Fault m]

def raise (message : Units) : ParserT m V O E :=
  fun _ => throw (.raised message)

variable {κ ω : Type} [Position ω] [View V κ ω]

/-- a parser run from an offset on -/
def skip (offset : Number) (parser : ParserT m V O E) : ParserT m V O E := fun input => do
  let (rest, _) ← liftExcept (View.takeSplit input offset)
  parser rest

end SliceParser.Parser
