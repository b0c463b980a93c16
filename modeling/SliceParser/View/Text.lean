/-
TEXT VIEWS: windows on a text of 16-bit units, whose elements are code points.

The position of a text view is the start of its window, and two views have the same base when their sources are
equal. A surrogate pair that the edge of the window cuts is two elements.
-/
import SliceParser.View.Basic
import SliceParser.Unicode.LowerCase

namespace SliceParser

instance : Alphabet UInt16 Element where
  segment := segment
  units := Element.units
  fold := LowerCase.lower
  boundary us count := boundaryAfter Element.units (segment us) count
  boundaryOf us count := count.toNat?.bind fun n =>
    (boundaryAfter Element.units (segment us) n).map Number.ofNat
  flatMap_units_segment := SliceParser.flatMap_units_segment
  units_ne_nil := Element.units_ne_nil
  boundary_eq _ _ := rfl
  boundaryOf_ofNat us count := by simp

structure Text extends Span UInt16 where
  deriving DecidableEq

namespace Text

/-- all of a source -/
def ofUnits (source : Units) : Text := ⟨.whole source⟩

def ofString (source : String) : Text := ofUnits (.ofString source)

/-- the window `[start, stop)` on a source, both edges integers inside it and in order -/
def window (source : Units) (start stop : Number) : Except Fault Text :=
  let fault := Fault.invalidWindow start stop source.length
  match start.toNat?, stop.toNat? with
  | some first, some last =>
    if h : first ≤ last ∧ last ≤ source.length then .ok ⟨⟨source, first, last, h.1, h.2⟩⟩ else .error fault
  | _, _ => .error fault

def drop (v : Text) (n : Nat) : Text := ⟨v.toSpan.drop n⟩

def take (v : Text) (n : Nat) : Text := ⟨v.toSpan.take n⟩

end Text

instance : View Text UInt16 Nat where
  span := Text.toSpan
  offset v := v.start
  drop := Text.drop
  take := Text.take
  sameBase a b := a.base = b.base
  text v := v.toSpan.content
  span_drop _ _ := rfl
  span_take _ _ := rfl
  offset_drop v n h := by
    show v.start + min n v.toSpan.length = v.start + n
    rw [Nat.min_eq_left h]
  offset_take _ _ := rfl
  sameBase_drop v n := by simp [Text.drop]
  sameBase_take v n := by simp [Text.take]

end SliceParser
