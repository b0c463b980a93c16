/-
PRIMITIVES: the eleven parsers that cut a slice off the front of an input that is all there.

- Every primitive answers with views of its input, and where it fails with a recoverable error of its own kind at the
  view it was called with. Running out of input is a match or a mismatch, never a request for more.
- `takeWhile` and `takeTill` never fail. `takeWhileMN` and `take` refuse counts that are not naturals when they are
  made.
- `Primitive` names the eleven with their arguments, and `Primitive.build` makes the parser.
-/
import SliceParser.Parser.Basic

namespace SliceParser

namespace Parser

variable {V κ α ω E : Type} [Position ω] [View V κ ω] [Alphabet κ α]

/-! ## Literals -/

def tag [DecidableEq κ] (literal : V) (errors : ErrorStrategy V E) : Parser V V E := fun input =>
  if View.compare input literal = .ok then cut input (View.length literal)
  else .ok (.error (errors.fromKind input .tag))

/-- a literal in any case; the match has the length of the literal -/
def tagNoCase [DecidableEq κ] (literal : V) (errors : ErrorStrategy V E) : Parser V V E := fun input =>
  if View.compareNoCase input literal = .ok then cut input (View.length literal)
  else .ok (.error (errors.fromKind input .tag))

/-! ## Sets -/

/-- the longest run of elements of a set, not empty -/
def isA [DecidableEq α] (set : V) (errors : ErrorStrategy V E) : Parser V V E := fun input =>
  let members := View.members set
  splitAtPosition1 input (fun e => !members.contains e) .isA errors

/-- the longest run of elements outside a set, not empty -/
def isNot [DecidableEq α] (set : V) (errors : ErrorStrategy V E) : Parser V V E := fun input =>
  let members := View.members set
  splitAtPosition1 input members.contains .isNot errors

/-! ## Predicates -/

/-- the longest run of elements that satisfy `p`, perhaps empty -/
def takeWhile (p : α → Bool) : Parser V V E := fun input => do
  let (rest, matched) ← View.splitAtPosition input fun e => !p e
  return .success rest matched

def takeWhile1 (p : α → Bool) (errors : ErrorStrategy V E) : Parser V V E := fun input =>
  splitAtPosition1 input (fun e => !p e) .takeWhile1 errors

/-- the longest run of elements up to the first that satisfies `p`, perhaps empty -/
def takeTill (p : α → Bool) : Parser V V E := fun input => do
  let (rest, matched) ← View.splitAtPosition input p
  return .success rest matched

def takeTill1 (p : α → Bool) (errors : ErrorStrategy V E) : Parser V V E := fun input =>
  splitAtPosition1 input p .takeTill1 errors

/-! ## Counts -/

/-- as many elements that satisfy `p` as there are, at least `least` and at most `most` -/
def takeBetween (least most : Nat) (p : α → Bool) (errors : ErrorStrategy V E) : Parser V V E := fun input =>
  let runEnd := (View.position input fun e => !p e).getD (View.length input)
  let error : Outcome V V E := .error (errors.fromKind input .takeWhileMN)
  match View.sliceIndex input least with
  | none => .ok error
  | some leastEnd =>
    if runEnd < leastEnd then .ok error
    else match View.sliceIndex input most with
      | some mostEnd => cut input (if mostEnd < runEnd then mostEnd else runEnd)
      | none => cut input runEnd

/-- `takeBetween`, with bounds that have to be naturals and in order -/
def takeWhileMN (least most : Number) (p : α → Bool) (errors : ErrorStrategy V E) :
    Except Fault (Parser V V E) := do
  let least ← least.toCount
  let most ← most.toCount
  if most < least then throw (.minimumExceedsMaximum least most)
  return takeBetween least most p errors

/-- exactly `count` elements -/
def takeCount (count : Nat) (errors : ErrorStrategy V E) : Parser V V E := fun input =>
  match View.sliceIndex input count with
  | some offset => cut input offset
  | none => .ok (.error (errors.fromKind input .eof))

/-- `takeCount`, with a count that has to be a natural -/
def take (count : Number) (errors : ErrorStrategy V E) : Except Fault (Parser V V E) := do
  let count ← count.toCount
  return takeCount count errors

/-! ## Needles -/

/-- everything before the first occurrence of a needle, which stays in the rest -/
def takeUntil [DecidableEq κ] (needle : V) (errors : ErrorStrategy V E) : Parser V V E := fun input =>
  match View.findSubstring input needle with
  | some offset => cut input offset
  | none => .ok (.error (errors.fromKind input .takeUntil))

end Parser

/-- the primitives with their arguments, over views `V` of elements `α` -/
inductive Primitive (V α : Type) where
  | tag (literal : V)
  | tagNoCase (literal : V)
  | isA (set : V)
  | isNot (set : V)
  | takeWhile (p : α → Bool)
  | takeWhile1 (p : α → Bool)
  | takeWhileMN (least most : Number) (p : α → Bool)
  | takeTill (p : α → Bool)
  | takeTill1 (p : α → Bool)
  | take (count : Number)
  | takeUntil (needle : V)

def Primitive.build {V κ α ω E : Type} [Position ω] [View V κ ω] [Alphabet κ α] [DecidableEq κ] [DecidableEq α]
    (errors : ErrorStrategy V E) : Primitive V α → Except Fault (Parser V V E)
  | .tag literal => .ok (Parser.tag literal errors)
  | .tagNoCase literal => .ok (Parser.tagNoCase literal errors)
  | .isA set => .ok (Parser.isA set errors)
  | .isNot set => .ok (Parser.isNot set errors)
  | .takeWhile p => .ok (Parser.takeWhile p)
  | .takeWhile1 p => .ok (Parser.takeWhile1 p errors)
  | .takeWhileMN least most p => Parser.takeWhileMN least most p errors
  | .takeTill p => .ok (Parser.takeTill p)
  | .takeTill1 p => .ok (Parser.takeTill1 p errors)
  | .take count => Parser.take count errors
  | .takeUntil needle => .ok (Parser.takeUntil needle errors)

end SliceParser
