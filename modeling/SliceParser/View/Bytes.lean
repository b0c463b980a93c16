/-
BYTE VIEWS: windows on a buffer of octets, each octet an element.

A buffer has an identity of its own: two buffers with the same octets are not the same base. The position of a byte
view is a number that whoever makes the view may choose; from there on it moves with the window.
-/
import SliceParser.View.Basic
import SliceParser.Unicode.Utf8

namespace SliceParser

/-- an ASCII capital becomes a small letter -/
def asciiLower (b : UInt8) : UInt8 :=
  if 0x41 ≤ b && b ≤ 0x5A then b + 0x20 else b

theorem boundaryAfter_singleton {κ : Type} (us : List κ) (count : Nat) :
    boundaryAfter (fun u => [u]) us count = if count ≤ us.length then some count else none := by
  induction us generalizing count with
  | nil => cases count <;> simp [boundaryAfter]
  | cons u us ih =>
    cases count with
    | zero => simp [boundaryAfter]
    | succ count =>
      simp only [boundaryAfter, ih, List.length_cons, List.length_nil, Nat.add_le_add_iff_right]
      split <;> simp [Nat.add_comm]

/-- octets are elements, so an offset is a count; a count at most the length is not looked at further -/
instance : Alphabet UInt8 UInt8 where
  segment us := us
  units u := [u]
  fold us := us.map asciiLower
  boundary us count := if count ≤ us.length then some count else none
  boundaryOf us count := if count.le (.ofNat us.length) then some count else none
  flatMap_units_segment us := by simp
  units_ne_nil _ := List.cons_ne_nil _ _
  boundary_eq us count := (boundaryAfter_singleton us count).symm
  boundaryOf_ofNat us count := by
    by_cases h : count ≤ us.length <;> simp [h]

structure Bytes extends Span UInt8 where
  /-- which buffer the base is -/
  buffer : Nat
  offset : Number
  deriving DecidableEq

namespace Bytes

/-- all of a buffer, its first octet at the position `offset` -/
def ofOctets (octets : List UInt8) (buffer : Nat) (offset : Number) : Bytes :=
  ⟨.whole octets, buffer, offset⟩

def drop (v : Bytes) (n : Nat) : Bytes :=
  ⟨v.toSpan.drop n, v.buffer, Position.advance v.offset (min n v.toSpan.length)⟩

def take (v : Bytes) (n : Nat) : Bytes :=
  { v with toSpan := v.toSpan.take n }

end Bytes

instance : View Bytes UInt8 Number where
  span := Bytes.toSpan
  offset := Bytes.offset
  drop := Bytes.drop
  take := Bytes.take
  sameBase a b := a.buffer = b.buffer && a.base = b.base
  text v := Utf8.decode v.toSpan.content
  span_drop _ _ := rfl
  span_take _ _ := rfl
  offset_drop v n h := by
    show Position.advance v.offset (min n v.toSpan.length) = _
    rw [Nat.min_eq_left h]
  offset_take _ _ := rfl
  sameBase_drop v n := by simp [Bytes.drop]
  sameBase_take v n := by simp [Bytes.take]

end SliceParser
