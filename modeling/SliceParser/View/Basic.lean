/-
VIEWS: what a kind of input has to offer, and what every parser may do with it.

- `Alphabet` says how units are read as elements. Offsets count units and counts count elements, so an alphabet also
  tells the offset just past the first elements.
- `Position` is where a view begins in its buffer, in the measure of that kind of view.
- `View` is a span with a position. Cutting moves the window and the position, and nothing else.
- The operations that follow, from `takeSplit` to `equals`, are derived once, for every view.
-/
import SliceParser.Outcome
import SliceParser.View.Span

namespace SliceParser

/-! ## Alphabets -/

/-- the offset just past the first `count` elements, given the units of each element -/
def boundaryAfter {κ α : Type} (units : α → List κ) : List α → Nat → Option Nat
  | _, 0 => some 0
  | [], _ + 1 => none
  | e :: rest, count + 1 => (boundaryAfter units rest count).map ((units e).length + ·)

/-- how units are read as elements -/
class Alphabet (κ : Type) (α : outParam Type) where
  segment : List κ → List α
  units : α → List κ
  /-- what two texts have in common when only their case differs -/
  fold : List κ → List κ
  /-- the offset just past the first `count` elements, if there are so many -/
  boundary : List κ → Nat → Option Nat
  /-- the same for a count that may be any number -/
  boundaryOf : List κ → Number → Option Number
  flatMap_units_segment : ∀ us, (segment us).flatMap units = us
  units_ne_nil : ∀ e, units e ≠ []
  boundary_eq : ∀ us count, boundary us count = boundaryAfter units (segment us) count
  boundaryOf_ofNat : ∀ us count, boundaryOf us (.ofNat count) = (boundary us count).map Number.ofNat

/-! ## Positions -/

class Position (ω : Type) where
  advance : ω → Nat → ω
  same : ω → ω → Bool
  toNumber : ω → Number

instance : Position Nat where
  advance := (· + ·)
  same a b := a = b
  toNumber := Number.ofNat

/-- a position that is any number moves by rounded addition -/
instance : Position Number where
  advance x n := x.add (.ofNat n)
  same := Number.same
  toNumber x := x

/-! ## Views -/

class View (V : Type) (κ ω : outParam Type) [Position ω] where
  span : V → Span κ
  offset : V → ω
  drop : V → Nat → V
  take : V → Nat → V
  sameBase : V → V → Bool
  /-- the content as text -/
  text : V → Units
  span_drop : ∀ v n, span (drop v n) = (span v).drop n
  span_take : ∀ v n, span (take v n) = (span v).take n
  offset_drop : ∀ v n, n ≤ (span v).length → offset (drop v n) = Position.advance (offset v) n
  offset_take : ∀ v n, offset (take v n) = offset v
  sameBase_drop : ∀ v n, sameBase (drop v n) v = true
  sameBase_take : ∀ v n, sameBase (take v n) v = true

/-- how an input stands to a literal that it may begin with -/
inductive Comparison where
  | ok
  /-- all of the input agrees with the literal, which goes on -/
  | incomplete
  | error
  deriving DecidableEq

namespace View

variable {V κ α ω : Type} [Position ω] [View V κ ω] [Alphabet κ α]

def content (v : V) : List κ := (span v).content

def length (v : V) : Nat := (span v).length

/-- the position of a view as a number -/
def offsetNumber (v : V) : Number := Position.toNumber (offset v)

@[simp] theorem length_content (v : V) : (content v).length = length v :=
  Span.length_content _

@[simp] theorem content_drop (v : V) (n : Nat) : content (drop v n) = (content v).drop n := by
  simp [content, span_drop]

@[simp] theorem content_take (v : V) (n : Nat) : content (take v n) = (content v).take n := by
  simp [content, span_take]

@[simp] theorem length_drop (v : V) (n : Nat) : length (drop v n) = length v - n := by
  simp [length, span_drop]

@[simp] theorem length_take (v : V) (n : Nat) : length (take v n) = min n (length v) := by
  simp [length, span_take]

/-! ## Cutting -/

/-- an offset in range, as a natural; any other number is a fault -/
def checkOffset (v : V) (offset : Number) : Except Fault Nat :=
  match offset.toNat? with
  | some n => if n ≤ length v then .ok n else .error (.offsetOutside offset (length v))
  | none => .error (.offsetOutside offset (length v))

/-- what lies behind the offset, and what lies before it -/
def takeSplit (v : V) (offset : Number) : Except Fault (V × V) := do
  let n ← checkOffset v offset
  return (drop v n, take v n)

/-- what lies before the offset -/
def takeTo (v : V) (offset : Number) : Except Fault V := do
  let n ← checkOffset v offset
  return take v n

theorem checkOffset_ofNat (v : V) (n : Nat) (h : n ≤ length v) : checkOffset v (.ofNat n) = .ok n := by
  simp [checkOffset, h]

theorem takeSplit_ofNat (v : V) (n : Nat) (h : n ≤ length v) :
    takeSplit v (.ofNat n) = .ok (drop v n, take v n) := by
  simp [takeSplit, checkOffset_ofNat v n h, bind, Except.bind, pure, Except.pure]

/-! ## Elements -/

/-- elements with the offsets they begin at, the first of them at `start` -/
def placed (units : α → List κ) (start : Nat) : List α → List (Nat × α)
  | [] => []
  | e :: rest => (start, e) :: placed units (start + (units e).length) rest

def elements (v : V) : List (Nat × α) :=
  placed (Alphabet.units : α → List κ) 0 (Alphabet.segment (content v))

/-- the offset just past the first `count` elements; nothing when there are fewer -/
def sliceIndex (v : V) (count : Nat) : Option Nat :=
  Alphabet.boundary (content v) count

def sliceIndexOf (v : V) (count : Number) : Option Number :=
  Alphabet.boundaryOf (content v) count

/-- the offset of the first element that satisfies `p` -/
def position (v : V) (p : α → Bool) : Option Nat :=
  ((elements v).find? fun (_, e) => p e).map (·.1)

/-- the elements that a view shows, which it holds when it is taken as a set -/
def members (v : V) : List α :=
  Alphabet.segment (content v)

/-- as a set of elements, a view contains those it shows -/
def contains [DecidableEq α] (v : V) (e : α) : Bool :=
  (members v).contains e

/-- the rest from the first element that satisfies `p`, and what lies before it; all of the view if none does -/
def splitAtPosition (v : V) (p : α → Bool) : Except Fault (V × V) :=
  takeSplit v (.ofNat ((position v p).getD (length v)))

/-! ## Literals -/

def compareUnits [DecidableEq κ] : List κ → List κ → Comparison
  | _, [] => .ok
  | [], _ :: _ => .incomplete
  | u :: us, w :: ws => if u = w then compareUnits us ws else .error

/-- compares each element of a literal with as many units of the input, both folded -/
def compareFolded [DecidableEq κ] (us : List κ) : List α → Comparison
  | [] => .ok
  | e :: rest =>
    let literal : List κ := Alphabet.units e
    let ours := us.take literal.length
    if ours.length < literal.length then .incomplete
    else if Alphabet.fold ours = Alphabet.fold literal then compareFolded (us.drop literal.length) rest
    else .error

/-- does the input begin with the literal? -/
def compare [DecidableEq κ] (v literal : V) : Comparison :=
  compareUnits (content v) (content literal)

/-- does the input begin with the literal, case aside? -/
def compareNoCase [DecidableEq κ] (v literal : V) : Comparison :=
  compareFolded (content v) (Alphabet.segment (content literal))

/-- the offset of the first occurrence of a needle -/
def firstOccurrence [DecidableEq κ] (needle : List κ) : List κ → Option Nat
  | [] => if needle.isEmpty then some 0 else none
  | u :: us => if needle.isPrefixOf (u :: us) then some 0 else (firstOccurrence needle us).map (· + 1)

def findSubstring [DecidableEq κ] (v needle : V) : Option Nat :=
  firstOccurrence (content needle) (content v)

def equals [DecidableEq κ] (v w : V) : Bool :=
  length v = length w && compare v w = .ok

end View

end SliceParser
