/-
CUTS: what lies behind an offset of a view and what lies before it.

- `IsCut`: two views are the two sides of a cut of a third. Nothing is copied and nothing is lost: both lie on the base
  of the view, one begins where it begins and the other where the first ends, and together they hold its content.
- `isCut`: **every offset in range is the place of a cut**, and `takeSplit` finds its two sides.
- `Steady`: a position that can be found again, by comparing it with itself. Every position of a text is
  (`steady_nat`), and of a byte view every one that is not not-a-number (`steady_number`).
- `Span.eq_take`, `Span.eq_drop`: a window is pinned down by its base and its place. What begins where another window
  begins is the front of it, and what ends where it ends is its back.
- `displacement`: how far a view lies behind another, as an integer. The sides of a cut lie where they should, in a text
  always (`Text.displacedBy_of_isCut`), in octets while positions stay in reach (`Bytes.displacedBy_of_isCut`).
-/
import SliceParser.Proofs.Number.Exact
import SliceParser.View.Text
import SliceParser.View.Bytes

namespace SliceParser

/-! ## Positions -/

/-- this position equals itself, and so does every position it moves to -/
def Position.Steady {ω : Type} [Position ω] (x : ω) : Prop :=
  Position.same x x = true ∧ ∀ n, Position.same (Position.advance x n) (Position.advance x n) = true

theorem Position.steady_nat (n : Nat) : Position.Steady n := by
  constructor
  · simp [Position.same]
  · intro k
    simp [Position.same]

theorem Position.steady_number {x : Number} (h : x ≠ .nan) : Position.Steady x :=
  ⟨Number.same_self h, fun n => Number.same_self (Number.add_ofNat_ne_nan h n)⟩

/-! ## Windows by their place -/

namespace Span

variable {κ : Type} {s t : Span κ}

theorem eq_of_place (hbase : s.base = t.base) (hstart : s.start = t.start) (hstop : s.stop = t.stop) : s = t := by
  obtain ⟨base, start, stop, hle, hlength⟩ := s
  obtain ⟨base', start', stop', hle', hlength'⟩ := t
  obtain rfl : base = base' := hbase
  obtain rfl : start = start' := hstart
  obtain rfl : stop = stop' := hstop
  rfl

theorem stop_eq (s : Span κ) : s.stop = s.start + s.length := by
  have hle := s.start_le_stop
  rw [length]
  omega

theorem eq_take (hbase : s.base = t.base) (hstart : s.start = t.start) (hlength : s.length ≤ t.length) :
    s = t.take s.length := by
  apply eq_of_place
  · exact hbase
  · exact hstart
  · rw [stop_eq, stop_take, Nat.min_eq_left hlength, hstart]

theorem eq_drop {k : Nat} (hbase : s.base = t.base) (hstart : s.start = t.start + k)
    (hlength : k + s.length = t.length) : s = t.drop k := by
  apply eq_of_place
  · exact hbase
  · rw [start_drop, Nat.min_eq_left (by omega), hstart]
  · rw [stop_eq, stop_drop, stop_eq, hstart]
    omega

end Span

namespace View

/-! ## The two sides of a cut -/

variable {V κ ω : Type} [Position ω] [View V κ ω]

/-- `value` is the first `k` units of `input`, and `rest` is what follows them -/
structure IsCut (input : V) (k : Nat) (rest value : V) : Prop where
  le_length : k ≤ length input
  takeSplit_eq : takeSplit input (.ofNat k) = .ok (rest, value)
  sameBase_rest : sameBase rest input = true
  sameBase_value : sameBase value input = true
  offset_rest : offset rest = Position.advance (offset input) k
  offset_value : offset value = offset input
  length_value : length value = k
  length_add : length value + length rest = length input
  content_append : content value ++ content rest = content input

/-- **Every offset in range is the place of a cut.** -/
theorem isCut (input : V) {k : Nat} (h : k ≤ length input) : IsCut input k (drop input k) (take input k) where
  le_length := h
  takeSplit_eq := takeSplit_ofNat input k h
  sameBase_rest := sameBase_drop input k
  sameBase_value := sameBase_take input k
  offset_rest := offset_drop input k h
  offset_value := offset_take input k
  length_value := by rw [length_take, Nat.min_eq_left h]
  length_add := by
    rw [length_take, length_drop]
    omega
  content_append := by rw [content_take, content_drop, List.take_append_drop]

/-- splitting is cutting at a natural in range -/
theorem takeSplit_eq_ok {input rest value : V} {offset : Number} :
    takeSplit input offset = .ok (rest, value) ↔
      ∃ k, offset.toNat? = some k ∧ k ≤ length input ∧ rest = drop input k ∧ value = take input k := by
  cases hk : offset.toNat? with
  | none => simp [takeSplit, checkOffset, hk, bind, Except.bind]
  | some k =>
    by_cases hle : k ≤ length input
    · simp [takeSplit, checkOffset, hk, hle, bind, Except.bind, pure, Except.pure, eq_comm]
    · simp [takeSplit, checkOffset, hk, hle, bind, Except.bind]

/-- taking in range is the front half of splitting there -/
theorem takeTo_eq_ok {input value : V} {k : Nat} :
    takeTo input (.ofNat k) = .ok value ↔ k ≤ length input ∧ value = take input k := by
  by_cases hle : k ≤ length input
  · simp [takeTo, checkOffset_ofNat input k hle, hle, bind, Except.bind, pure, Except.pure, eq_comm]
  · simp [takeTo, checkOffset, hle, bind, Except.bind]

/-! ## Displacement -/

/-- how far a view lies behind another, if both lie at integers -/
def displacement (v origin : V) : Option Int := do
  let here ← (offsetNumber v).toInt?
  let there ← (offsetNumber origin).toInt?
  return here - there

/-- the view lies at an integer, and the place `k` units further on at one that sums reach exactly -/
def InReach (v : V) (k : Nat) : Prop :=
  ∃ o : Int, offsetNumber v = .ofInt o ∧ (o + k).natAbs ≤ 2 ^ 53

theorem displacement_of_ofInt {v origin : V} {i j : Int} (hv : offsetNumber v = .ofInt i)
    (horigin : offsetNumber origin = .ofInt j) : displacement v origin = some (i - j) := by
  rw [displacement, hv, horigin, Number.toInt?_ofInt, Number.toInt?_ofInt]
  rfl

/-- the two sides of a cut lie as far behind the input as they should -/
structure DisplacedBy (k : Nat) (input rest value : V) : Prop where
  rest : displacement rest input = some (k : Int)
  value : displacement value input = some 0

end View

theorem Text.displacedBy_of_isCut {input rest value : Text} {k : Nat} (h : View.IsCut input k rest value) :
    View.DisplacedBy k input rest value := by
  have hnumber : ∀ v : Text, View.offsetNumber v = .ofInt v.start := fun v => rfl
  have hrest : rest.start = input.start + k := h.offset_rest
  have hvalue : value.start = input.start := h.offset_value
  constructor
  · rw [View.displacement_of_ofInt (hnumber rest) (hnumber input), hrest]
    congr 1
    omega
  · rw [View.displacement_of_ofInt (hnumber value) (hnumber input), hvalue, Int.sub_self]

/-- byte positions move exactly while they stay in reach -/
theorem Bytes.offset_rest_exact {input rest value : Bytes} {k : Nat} (hcut : View.IsCut input k rest value) {o : Int}
    (ho : input.offset = .ofInt o) (hreach : (o + k).natAbs ≤ 2 ^ 53) : rest.offset = .ofInt (o + k) := by
  have hmove : rest.offset = input.offset.add (.ofNat k) := hcut.offset_rest
  rw [hmove, ho, Number.add_ofNat hreach]

theorem Bytes.displacedBy_of_isCut {input rest value : Bytes} {k : Nat} (h : View.IsCut input k rest value)
    (hreach : View.InReach input k) : View.DisplacedBy k input rest value := by
  obtain ⟨o, ho, hsum⟩ := hreach
  have hrest : View.offsetNumber rest = .ofInt (o + k) := Bytes.offset_rest_exact h ho hsum
  have hvalue : View.offsetNumber value = .ofInt o := h.offset_value.trans ho
  constructor
  · rw [View.displacement_of_ofInt hrest ho]
    congr 1
    omega
  · rw [View.displacement_of_ofInt hvalue ho, Int.sub_self]

end SliceParser
