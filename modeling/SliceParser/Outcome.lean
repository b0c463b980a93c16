/-
OUTCOMES of a parser, and the faults that stop one from having an outcome.

- `Needed` is how much more input a parser asks for: unknown, or a positive number of elements.
- `Err` is a failure: more input needed, recoverable (another alternative may be tried) or unrecoverable.
- `Outcome` is a success, with what is left and what was matched, or a failure.
- `Fault` is a misuse of the library, named by its cause; `Fault.message` is the one place that words them.
- `Outcome.finish` takes the wrapper off; more input needed is then a fault.
-/
import SliceParser.Number.Decimal
import SliceParser.Unicode.Utf16

namespace SliceParser

/-- how much more input a parser asks for -/
inductive Needed where
  | unknown
  | size (count : Nat) (positive : 0 < count)
  deriving DecidableEq

/-- a misuse, by its cause -/
inductive Fault where
  | offsetOutside (offset : Number) (length : Nat)
  | invalidCount (count : Number)
  | minimumExceedsMaximum (minimum maximum : Nat)
  | invalidWindow (start stop : Number) (length : Nat)
  | invalidNeed (size : Number)
  | unknownKind (name : Units)
  | incompleteInput (needed : Needed)
  | raised (message : Units)
  deriving DecidableEq

namespace Fault

def natText (n : Nat) : String := (Number.round (n : Int)).toText

def message : Fault → Units
  | .offsetOutside offset length =>
    .ofString ("Offset " ++ offset.toText ++ " is outside [0, " ++ natText length ++ "]")
  | .invalidCount count => .ofString ("Expected a non-negative integer count, got " ++ count.toText)
  | .minimumExceedsMaximum minimum maximum =>
    .ofString ("takeWhileMN: minimum " ++ natText minimum ++ " exceeds maximum " ++ natText maximum)
  | .invalidWindow start stop length =>
    .ofString ("Invalid text window [" ++ start.toText ++ ", " ++ stop.toText ++ ") over " ++ natText length
      ++ " code units")
  | .invalidNeed size => .ofString ("Needed size must be a positive integer, got " ++ size.toText)
  | .unknownKind name => .ofString "Unknown error kind: " ++ name
  | .incompleteInput .unknown => .ofString "Parser asked for more data on complete input"
  | .incompleteInput (.size count _) =>
    .ofString ("Parser asked for " ++ natText count ++ " more elements on complete input")
  | .raised message => message

end Fault

/-- asking for `size` more elements makes sense for a positive integer only -/
def Needed.ofSize (size : Number) : Except Fault Needed :=
  match size.toNat? with
  | some count => if h : 0 < count then .ok (.size count h) else .error (.invalidNeed size)
  | none => .error (.invalidNeed size)

/-- the natural that a count argument stands for -/
def Number.toCount (count : Number) : Except Fault Nat :=
  match count.toNat? with
  | some n => .ok n
  | none => .error (.invalidCount count)

/-! ## Failures -/

inductive Err (E : Type) where
  | incomplete (needed : Needed)
  | recoverable (error : E)
  | unrecoverable (error : E)
  deriving DecidableEq

namespace Err

def map {E F : Type} (f : E → F) : Err E → Err F
  | .incomplete needed => .incomplete needed
  | .recoverable error => .recoverable (f error)
  | .unrecoverable error => .unrecoverable (f error)

def isIncomplete {E : Type} : Err E → Bool
  | .incomplete _ => true
  | _ => false

/-- a failure in one line, its error written by `showError` -/
def describe {E : Type} (showError : E → Units) : Err E → Units
  | .incomplete .unknown => .ofString "Incomplete (needed: unknown)"
  | .incomplete (.size count _) => .ofString ("Incomplete (needed: " ++ Fault.natText count ++ ")")
  | .recoverable error => .ofString "Error " ++ showError error
  | .unrecoverable error => .ofString "Failure " ++ showError error

end Err

/-! ## Outcomes -/

/-- what a parser answers: what is left and what it matched, or why it failed -/
inductive Outcome (V O E : Type) where
  | success (rest : V) (value : O)
  | failed (err : Err E)
  deriving DecidableEq

namespace Outcome

variable {V O E F : Type}

def error (e : E) : Outcome V O E := .failed (.recoverable e)

def failure (e : E) : Outcome V O E := .failed (.unrecoverable e)

def mapErr (f : E → F) : Outcome V O E → Outcome V O F
  | .success rest value => .success rest value
  | .failed err => .failed (err.map f)

/-- the outcome without its wrapper; on complete input there is nothing more to ask for -/
def finish : Outcome V O E → Except Fault (Except E (V × O))
  | .success rest value => .ok (.ok (rest, value))
  | .failed (.incomplete needed) => .error (.incompleteInput needed)
  | .failed (.recoverable e) => .ok (.error e)
  | .failed (.unrecoverable e) => .ok (.error e)

end Outcome

end SliceParser
