/-
LAWS that a slicing parser has to keep on every input when the input is all there. Each is checked by running the
parser.

- concatenation: what was matched and what is left are the input's own halves;
- monotonic consumption: the rest is no longer than the input, and the match accounts for the difference;
- determinism: a second run has the same outcome;
- totality: there is an outcome at all, and not a fault;
- completeness: no more input is asked for.

A fault stops every check but that of totality, and so it stops `brokenLaws`.
-/
import SliceParser.Parser.Basic

namespace SliceParser

inductive ParserLaw where
  | concatenation
  | monotonicConsumption
  | determinism
  | totality
  | completeness
  deriving DecidableEq

namespace ParserLaw

def all : List ParserLaw := [.concatenation, .monotonicConsumption, .determinism, .totality, .completeness]

def name : ParserLaw → String
  | .concatenation => "concatenation"
  | .monotonicConsumption => "monotonic consumption"
  | .determinism => "determinism"
  | .totality => "totality"
  | .completeness => "completeness"

def description : ParserLaw → String
  | .concatenation => "the matched view ends where the rest begins, both cover the input and share its base"
  | .monotonicConsumption => "the rest is never longer than the input"
  | .determinism => "calling the parser twice on the same input yields the same outcome"
  | .totality => "the parser returns an outcome instead of throwing"
  | .completeness => "a complete-input parser never asks for more data"

variable {m : Type → Type} [Monad m] [MonadExceptOf Fault m] {V κ ω E : Type} [Position ω] [View V κ ω]

/-- two views at the same position and of the same length -/
def samePlace (v w : V) : Bool :=
  Position.same (View.offset v) (View.offset w) && View.length v = View.length w

/-- views are compared by place, errors by `eqError`; two requests for more are the same -/
def sameOutcome (eqError : E → E → Bool) : Outcome V V E → Outcome V V E → Bool
  | .success rest value, .success rest' value' => samePlace rest rest' && samePlace value value'
  | .failed (.incomplete _), .failed (.incomplete _) => true
  | .failed (.recoverable e), .failed (.recoverable e') => eqError e e'
  | .failed (.unrecoverable e), .failed (.unrecoverable e') => eqError e e'
  | _, _ => false

/-- the match and the rest lie on the base of the input, begin where they should and add up to its length -/
def concatenates (input : V) : Outcome V V E → Bool
  | .success rest value =>
    View.sameBase value input && View.sameBase rest input &&
    Position.same (View.offset value) (View.offset input) &&
    Position.same (View.offset rest) (Position.advance (View.offset input) (View.length value)) &&
    View.length value + View.length rest = View.length input
  | .failed _ => true

def consumesMonotonically (input : V) : Outcome V V E → Bool
  | .success rest value =>
    View.length rest ≤ View.length input && View.length value = View.length input - View.length rest
  | .failed _ => true

def isComplete : Outcome V V E → Bool
  | .failed (.incomplete _) => false
  | _ => true

def check (eqError : E → E → Bool) (parser : ParserT m V V E) (input : V) : ParserLaw → m Bool
  | .concatenation => return concatenates input (← parser input)
  | .monotonicConsumption => return consumesMonotonically input (← parser input)
  | .determinism => do
    let first ← parser input
    let second ← parser input
    return sameOutcome eqError first second
  | .totality =>
    tryCatchThe Fault (do let _ ← parser input; return true) fun _ => return false
  | .completeness => return isComplete (← parser input)

/-- those of `laws` that fail on an input, in their order -/
def broken (eqError : E → E → Bool) (parser : ParserT m V V E) (input : V) : List ParserLaw → m (List ParserLaw)
  | [] => return []
  | law :: others => do
    let holds ← check eqError parser input law
    let rest ← broken eqError parser input others
    return if holds then rest else law :: rest

/-- errors are the same when their JSON is -/
def sameJson [JsonText E] (e e' : E) : Bool :=
  jsonText e = jsonText e'

end ParserLaw

/-- the laws that fail on an input -/
def brokenLaws {m : Type → Type} [Monad m] [MonadExceptOf Fault m] {V κ ω E : Type} [Position ω] [View V κ ω]
    (eqError : E → E → Bool) (parser : ParserT m V V E) (input : V) : m (List ParserLaw) :=
  ParserLaw.broken eqError parser input ParserLaw.all

end SliceParser
