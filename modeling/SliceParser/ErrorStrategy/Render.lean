/-
RENDERING of verbose errors over the text they came from: for each entry a headline, the line it happened in, and a
caret under the column.

- A position in the text divides it. Its line and column are counted forwards from the start of the text; the line
  itself is what lies around the position, between the breaks on both sides.
- An entry may lie beyond the text, and then counts as lying at its end. An entry that lies before the text counts as
  lying at its start, except that a line break right there is what the line shows.
-/
import SliceParser.ErrorStrategy.Basic
import SliceParser.View.Text

namespace SliceParser.Render

def lineBreak : UInt16 := 0x0A

/-- what follows the last line break -/
def lastLine (us : Units) : Units :=
  (us.reverse.takeWhile (· ≠ lineBreak)).reverse

/-- what precedes the first line break -/
def firstLine (us : Units) : Units :=
  us.takeWhile (· ≠ lineBreak)

/-- one unit on from a line and a column -/
def advance (place : Nat × Nat) (u : UInt16) : Nat × Nat :=
  if u = lineBreak then (place.1 + 1, 1) else (place.1, place.2 + 1)

/-- the line and the column of a position, both from 1 -/
def lineCol (source : Units) (pos : Int) : Nat × Nat :=
  (source.take pos.toNat).foldl advance (1, 1)

/-- the line that a position lies in -/
def lineAt (source : Units) (pos : Int) : Units :=
  if pos < 0 ∧ source.head? = some lineBreak then [lineBreak]
  else lastLine (source.take pos.toNat) ++ firstLine (source.drop pos.toNat)

def headline (entry : VerboseEntry) (place : Text) (line : Nat) : Units :=
  let intro := Units.ofString ("at line " ++ Fault.natText line ++ ", ")
  match entry with
  | .kind kind => intro ++ .ofString ("in " ++ kind.description ++ ":")
  | .context label => intro ++ .ofString "in " ++ label ++ .ofString ":"
  | .char expected =>
    let found := match View.elements place with
      | [] => .ofString "got end of input"
      | (_, e) :: _ => .ofString "found '" ++ e.units ++ .ofString "'"
    intro ++ .ofString "expected '" ++ expected ++ .ofString "', " ++ found

def block (source : Text) (index : Nat) (place : Text) (entry : VerboseEntry) : Units :=
  let content := View.content source
  let pos : Int := place.start - source.start
  let spot := lineCol content pos
  .ofString (Fault.natText index ++ ": ") ++ headline entry place spot.1 ++ [lineBreak] ++
    lineAt content pos ++ [lineBreak] ++
    List.replicate (spot.2 - 1) 0x20 ++ .ofString "^"

/-- every entry against `source`, the text that the failing parser was first called with -/
def verbose (source : Text) (error : VerboseError Text) : Units :=
  Units.joinWith [lineBreak, lineBreak]
    (error.entries.mapIdx fun index (place, entry) => block source index place entry)

end SliceParser.Render
