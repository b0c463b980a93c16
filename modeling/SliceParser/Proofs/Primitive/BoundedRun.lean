/-
BOUNDED RUNS: `takeWhileMN` compares offsets, and yet it counts elements.

- `leading`: how many elements satisfy a predicate in front of the first that does not.
- `clamped_eq`: the offset that is decided on lies behind as many elements as lead, but no more than the upper bound, if
  the lower bound is met. Offsets are ordered as counts are (`extent_lt_iff`), and a bound beyond the end of the input
  has no offset, but is not in the way either.
- `takeWhileMN_counts_elements`: **the primitive fails exactly when fewer elements lead than it asks for, and otherwise
  matches those that lead, up to its upper bound.** Elements are those that the match shows itself.
-/
import SliceParser.Proofs.Primitive.Answer
import SliceParser.Proofs.View.Cut
import SliceParser.Proofs.View.Rereading
import SliceParser.Parser.ElementClass

namespace SliceParser

namespace Primitive

variable {V κ α ω E : Type} [Position ω] [View V κ ω] [Alphabet κ α]

/-! ## Counts and offsets -/

/-- how many elements satisfy `p` in front of the first that does not -/
def leading (p : α → Bool) (v : V) : Nat :=
  ((View.elements v).takeWhile fun (_, e) => p e).length

theorem leading_eq (p : α → Bool) (v : V) : leading p v = ((View.members v).takeWhile p).length := by
  rw [← View.map_snd_elements, List.takeWhile_map, List.length_map]
  rfl

theorem takeWhile_members_eq (p : α → Bool) (v : V) :
    (View.members v).takeWhile p = (View.members v).take (leading p v) := by
  rw [leading_eq]
  exact List.prefix_iff_eq_take.1 (List.takeWhile_prefix p)

theorem leading_le (p : α → Bool) (v : V) : leading p v ≤ (View.members v : List α).length := by
  rw [leading_eq]
  exact (List.takeWhile_prefix p).length_le

/-- the end of the run is the offset behind the elements that lead -/
theorem runEnd_eq_extent_leading (p : α → Bool) (v : V) :
    (View.runEnd v fun e => !p e) = extent (Alphabet.units : α → List κ) ((View.members v).take (leading p v)) := by
  rw [View.runEnd_eq, ← takeWhile_members_eq]
  simp only [Bool.not_not]

theorem extent_take_lt_iff (v : V) {i j : Nat} (hi : i ≤ (View.members v : List α).length)
    (hj : j ≤ (View.members v : List α).length) :
    extent (Alphabet.units : α → List κ) ((View.members v).take i) <
      extent (Alphabet.units : α → List κ) ((View.members v).take j) ↔ i < j := by
  rw [extent_lt_iff (List.take_prefix i _) (List.take_prefix j _), List.length_take_of_le hi, List.length_take_of_le hj]

/-- the offset behind the elements that lead, but behind no more than `n` of them -/
def boundedEnd (n : Nat) (p : α → Bool) (v : V) : Nat :=
  extent (Alphabet.units : α → List κ) ((View.members v).take (min (leading p v) n))

theorem boundedEnd_le (n : Nat) (p : α → Bool) (v : V) : boundedEnd n p v ≤ View.length v :=
  View.IsBoundary.le_length ⟨_, List.take_prefix _ _, rfl⟩

theorem clamped_of_lt {stop least : Nat} (h : stop < least) (most? : Option Nat) :
    clamped stop (some least) most? = none :=
  if_pos h

theorem clamped_of_le {stop least : Nat} (h : ¬ stop < least) (most? : Option Nat) :
    clamped stop (some least) most? = match most? with
      | some most => some (if most < stop then most else stop)
      | none => some stop :=
  if_neg h

/-- **Clamping offsets is clamping counts.** -/
theorem clamped_eq (p : α → Bool) (v : V) (m n : Nat) :
    clamped (View.runEnd v fun e => !p e) (View.sliceIndex v m) (View.sliceIndex v n) =
      if leading p v < m then none else some (boundedEnd n p v) := by
  have hle := leading_le p v
  rw [runEnd_eq_extent_leading, View.sliceIndex_eq v m]
  by_cases hshort : leading p v < m
  · rw [if_pos hshort]
    by_cases hm : m ≤ (View.members v : List α).length
    · rw [if_pos hm, clamped_of_lt ((extent_take_lt_iff v hle hm).2 hshort)]
    · rw [if_neg hm]
      rfl
  · have hm : m ≤ (View.members v : List α).length := by omega
    rw [if_neg hshort, if_pos hm, clamped_of_le (mt (extent_take_lt_iff v hle hm).1 hshort), View.sliceIndex_eq v n,
      boundedEnd]
    by_cases hn : n ≤ (View.members v : List α).length
    · rw [if_pos hn]
      simp only [extent_take_lt_iff v hn hle]
      by_cases hmore : n < leading p v
      · rw [if_pos hmore, Nat.min_eq_right hmore.le]
      · rw [if_neg hmore, Nat.min_eq_left (Nat.le_of_not_lt hmore)]
    · -- beyond the end there is no offset to stop at, and no element either
      rw [if_neg hn, Nat.min_eq_left (by omega)]

/-! ## The primitive -/

theorem takeWhileMN_ofNat (errors : ErrorStrategy V E) {m n : Nat} (h : m ≤ n) (p : α → Bool) :
    Parser.takeWhileMN (.ofNat m) (.ofNat n) p errors = .ok (Parser.takeBetween m n p errors) := by
  rw [Parser.takeWhileMN, Number.toCount, Number.toCount, Number.toNat?_ofNat, Number.toNat?_ofNat]
  simp only [bind, Except.bind, if_neg (Nat.not_lt.2 h)]
  rfl

/-- what a parser does that takes at least `m` leading elements, at most `n`, and as many as it can -/
structure TakesBetween (errors : ErrorStrategy V E) (m n : Nat) (p : α → Bool) (parser : Parser V V E) (input : V) :
    Prop where
  fails_iff : parser input = .ok (.error (errors.fromKind input .takeWhileMN)) ↔ leading p input < m
  succeeds : m ≤ leading p input → ∃ rest value, parser input = .ok (.success rest value) ∧
    (∃ k, View.IsCut input k rest value) ∧
    View.elements value = (View.elements input).take (min (leading p input) n)

theorem takeBetween_success (errors : ErrorStrategy V E) {m n : Nat} {p : α → Bool} {input : V}
    (h : m ≤ leading p input) :
    Parser.takeBetween m n p errors input =
      .ok (.success (View.drop input (boundedEnd n p input)) (View.take input (boundedEnd n p input))) := by
  rw [takeBetween_eq, clamped_eq, if_neg (Nat.not_lt.2 h)]
  exact Parser.cut_eq input _ (boundedEnd_le n p input)

theorem elements_take_boundedEnd [Rereading κ] (n : Nat) (p : α → Bool) (v : V) :
    View.elements (View.take v (boundedEnd n p v)) = (View.elements v).take (min (leading p v) n) := by
  have hsplit : View.members v =
      (View.members v).take (min (leading p v) n) ++ (View.members v).drop (min (leading p v) n) :=
    (List.take_append_drop _ _).symm
  have hcount : ((View.members v : List α).take (min (leading p v) n)).length = min (leading p v) n :=
    List.length_take_of_le ((Nat.min_le_left _ _).trans (leading_le p v))
  rw [boundedEnd, View.elements_take_extent hsplit, hcount]

theorem takeBetween_takesBetween [Rereading κ] (errors : ErrorStrategy V E) (m n : Nat) (p : α → Bool) (input : V) :
    TakesBetween errors m n p (Parser.takeBetween m n p errors) input := by
  constructor
  · constructor
    · intro hfails
      by_contra hle
      rw [takeBetween_success errors (Nat.le_of_not_lt hle)] at hfails
      exact nomatch hfails
    · intro hshort
      rw [takeBetween_eq, clamped_eq, if_pos hshort]
  · intro hle
    have hcut := View.isCut input (boundedEnd_le n p input)
    exact ⟨_, _, takeBetween_success errors hle, ⟨_, hcut⟩, elements_take_boundedEnd n p input⟩

end Primitive

open Primitive

/-- **Elements are counted, not units.** With bounds in order the primitive can be made, on texts and on octets, and the
upper bound may lie beyond the end of the input. -/
theorem takeWhileMN_counts_elements {E : Type} :
    (∀ (errors : ErrorStrategy Text E) (m n : Nat) (p : Element → Bool), m ≤ n →
      ∃ parser, (Primitive.takeWhileMN (.ofNat m) (.ofNat n) p).build errors = .ok parser ∧
        ∀ input : Text, TakesBetween errors m n p parser input) ∧
    (∀ (errors : ErrorStrategy Bytes E) (m n : Nat) (p : UInt8 → Bool), m ≤ n →
      ∃ parser, (Primitive.takeWhileMN (.ofNat m) (.ofNat n) p).build errors = .ok parser ∧
        ∀ input : Bytes, TakesBetween errors m n p parser input) := by
  constructor
  · intro errors m n p h
    exact ⟨_, takeWhileMN_ofNat errors h p, takeBetween_takesBetween errors m n p⟩
  · intro errors m n p h
    exact ⟨_, takeWhileMN_ofNat errors h p, takeBetween_takesBetween errors m n p⟩

/-- two pairs lead, of which one is taken, and three are not there; of two octets both are taken, though nine may be -/
theorem pairs_are_counted_once :
    let input : Text := .ofUnits [0xD83D, 0xDE00, 0xD83D, 0xDE01, 0x61]
    let isPair : Element → Bool := fun e => ElementClass.isAstral e.code
    let octets : Bytes := .ofOctets [1, 2] 0 (.ofInt 7)
    leading isPair input = 2 ∧
    TakesBetween (E := SimpleError Text) .simple 1 1 isPair (Parser.takeBetween 1 1 isPair .simple) input ∧
    View.elements (View.take input 2) = [(0, .pair 0xD83D 0xDE00)] ∧
    TakesBetween (E := SimpleError Text) .simple 3 7 isPair (Parser.takeBetween 3 7 isPair .simple) input ∧
    TakesBetween (E := SimpleError Bytes) .simple 0 9 (fun _ => true) (Parser.takeBetween 0 9 (fun _ => true) .simple)
      octets := by
  intro input isPair octets
  obtain ⟨one, hone, hall⟩ := (takeWhileMN_counts_elements (E := SimpleError Text)).1 .simple 1 1 isPair (by decide)
  obtain rfl : Parser.takeBetween 1 1 isPair .simple = one :=
    Except.ok.inj ((takeWhileMN_ofNat .simple (by decide) isPair).symm.trans hone)
  obtain ⟨three, hthree, hall'⟩ := (takeWhileMN_counts_elements (E := SimpleError Text)).1 .simple 3 7 isPair (by decide)
  obtain rfl : Parser.takeBetween 3 7 isPair .simple = three :=
    Except.ok.inj ((takeWhileMN_ofNat .simple (by decide) isPair).symm.trans hthree)
  obtain ⟨both, hboth, hall''⟩ :=
    (takeWhileMN_counts_elements (E := SimpleError Bytes)).2 .simple 0 9 (fun _ => true) (by decide)
  obtain rfl : Parser.takeBetween 0 9 (fun _ => true) .simple = both :=
    Except.ok.inj ((takeWhileMN_ofNat .simple (by decide) fun _ => true).symm.trans hboth)
  exact ⟨rfl, hall input, rfl, hall' input, hall'' octets⟩

end SliceParser
