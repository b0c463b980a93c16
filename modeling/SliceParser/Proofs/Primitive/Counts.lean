/-
COUNTS: `take` takes as many elements as it is asked for, and counts add up.

- `countEnd`: the offset behind the first elements. `takeCount_success_iff`: if there are so many, `take` cuts there.
- `countEnd_add`: behind a cut at one count, the other count ends where both end together, because the rest begins with
  a whole element and shows the elements that were behind the cut (`members_drop_countEnd`).
- `TakesFirst`: taking a count succeeds exactly when there are so many elements, and takes the first of them.
- `AddsUp`: taking a sum succeeds exactly when taking one count and then the other does, and takes what both take.
- `counts_add_up`: **counts are exact and add up**, on texts and on octets. The rest of the sum is the rest of the
  second count: the same view of a text, and the same window on the same octets. Its position is the same as long as
  positions stay in reach.
- `rests_differ_far_out`: beyond that, a position that is rounded twice is not the one that is rounded once.
-/
import SliceParser.Proofs.Primitive.Answer
import SliceParser.Proofs.View.Rereading
import SliceParser.Proofs.View.Window

namespace SliceParser

namespace Primitive

variable {V κ α ω E : Type} [Position ω] [View V κ ω] [Alphabet κ α]

/-! ## The end of a count -/

/-- the offset behind the first `count` elements, or behind all of them if there are fewer -/
def countEnd (count : Nat) (v : V) : Nat :=
  extent (Alphabet.units : α → List κ) ((View.members v).take count)

theorem countEnd_le (count : Nat) (v : V) : countEnd count v ≤ View.length v :=
  View.IsBoundary.le_length ⟨_, List.take_prefix count _, rfl⟩

theorem take_ofNat (errors : ErrorStrategy V E) (count : Nat) :
    Parser.take (.ofNat count) errors = .ok (Parser.takeCount count errors) := by
  rw [Parser.take, Number.toCount, Number.toNat?_ofNat]
  rfl

theorem takeCount_eq_ite (errors : ErrorStrategy V E) (count : Nat) (input : V) :
    Parser.takeCount count errors input =
      if (View.members input : List α).length < count then .ok (.error (errors.fromKind input .eof))
      else Parser.cut input (countEnd count input) := by
  unfold Parser.takeCount
  rw [View.sliceIndex_eq]
  by_cases hcount : count ≤ (View.members input : List α).length
  · rw [if_pos hcount, if_neg (Nat.not_lt.2 hcount)]
    rfl
  · rw [if_neg hcount, if_pos (Nat.lt_of_not_le hcount)]

theorem takeCount_success_iff {errors : ErrorStrategy V E} {count : Nat} {input rest value : V} :
    Parser.takeCount count errors input = .ok (.success rest value) ↔
      count ≤ (View.members input : List α).length ∧
        rest = View.drop input (countEnd count input) ∧ value = View.take input (countEnd count input) := by
  rw [takeCount_eq_ite, Parser.cut_unless_success_iff (countEnd_le count input), Nat.not_lt]

variable [Rereading κ]

theorem members_drop_countEnd (count : Nat) (v : V) :
    View.members (View.drop v (countEnd count v)) = (View.members v).drop count :=
  View.members_drop_extent (List.take_append_drop count _).symm

theorem elements_take_countEnd {count : Nat} {v : V} (h : count ≤ (View.members v : List α).length) :
    View.elements (View.take v (countEnd count v)) = (View.elements v).take count := by
  have hcount : ((View.members v : List α).take count).length = count := List.length_take_of_le h
  rw [countEnd, View.elements_take_extent (List.take_append_drop count _).symm, hcount]

/-- one count and then the other end where their sum ends -/
theorem countEnd_add (a b : Nat) (v : V) :
    countEnd (a + b) v = countEnd a v + countEnd b (View.drop v (countEnd a v)) := by
  calc countEnd (a + b) v
      = extent (Alphabet.units : α → List κ) ((View.members v).take a ++ ((View.members v).drop a).take b) := by
        rw [countEnd, List.take_add]
    _ = countEnd a v + countEnd b (View.drop v (countEnd a v)) := by
        rw [extent_append, ← members_drop_countEnd a v]
        rfl

/-! ## One count -/

/-- what a parser does that takes the first `count` elements, if there are so many -/
structure TakesFirst (errors : ErrorStrategy V E) (count : Nat) (parser : Parser V V E) (input : V) : Prop where
  succeeds_iff : (∃ rest value, parser input = .ok (.success rest value)) ↔
    count ≤ (View.elements input : List (Nat × α)).length
  /-- a success is a cut behind these elements -/
  success : ∀ rest value, parser input = .ok (.success rest value) →
    (∃ k, View.IsCut input k rest value) ∧
      (View.elements value : List (Nat × α)) = (View.elements input).take count
  short : (View.elements input : List (Nat × α)).length < count →
    parser input = .ok (.error (errors.fromKind input .eof))

theorem takeCount_takesFirst (errors : ErrorStrategy V E) (count : Nat) (input : V) :
    TakesFirst errors count (Parser.takeCount count errors) input where
  succeeds_iff := by
    rw [View.length_elements]
    constructor
    · rintro ⟨rest, value, hrun⟩
      exact (takeCount_success_iff.1 hrun).1
    · intro hcount
      exact ⟨_, _, takeCount_success_iff.2 ⟨hcount, rfl, rfl⟩⟩
  success := by
    intro rest value hrun
    obtain ⟨hcount, rfl, rfl⟩ := takeCount_success_iff.1 hrun
    exact ⟨⟨_, View.isCut input (countEnd_le count input)⟩, elements_take_countEnd hcount⟩
  short := by
    intro hshort
    rw [View.length_elements] at hshort
    rw [takeCount_eq_ite, if_pos hshort]

/-! ## Two counts -/

/-- `both` does in one step what `first` and `second` do one after the other; the rests are the same up to `R` -/
structure AddsUp (R : V → V → Prop) (first second both : Parser V V E) (input : V) : Prop where
  succeeds_iff : (∃ last all, both input = .ok (.success last all)) ↔
    ∃ rest value, first input = .ok (.success rest value) ∧
      ∃ rest' value', second rest = .ok (.success rest' value')
  same : ∀ rest value rest' value' last all, first input = .ok (.success rest value) →
    second rest = .ok (.success rest' value') → both input = .ok (.success last all) →
      R rest' last ∧ View.length all = View.length value + View.length value'

/-- it is enough that cutting twice leaves what cutting once leaves, at the two places in question -/
theorem takeCount_addsUp {R : V → V → Prop} (errors : ErrorStrategy V E) (a b : Nat) (input : V)
    (h : View.RestsCompose R input (countEnd a input) (countEnd b (View.drop input (countEnd a input)))) :
    AddsUp R (Parser.takeCount a errors) (Parser.takeCount b errors) (Parser.takeCount (a + b) errors) input := by
  have hbehind : (View.members (View.drop input (countEnd a input)) : List α).length =
      (View.members input : List α).length - a := by
    rw [members_drop_countEnd, List.length_drop]
  constructor
  · constructor
    · rintro ⟨last, all, hboth⟩
      obtain ⟨hsum, -, -⟩ := takeCount_success_iff.1 hboth
      refine ⟨_, _, takeCount_success_iff.2 ⟨by omega, rfl, rfl⟩, _, _, takeCount_success_iff.2 ⟨?_, rfl, rfl⟩⟩
      rw [hbehind]
      omega
    · rintro ⟨rest, value, hfirst, rest', value', hsecond⟩
      obtain ⟨ha, rfl, -⟩ := takeCount_success_iff.1 hfirst
      obtain ⟨hb, -, -⟩ := takeCount_success_iff.1 hsecond
      rw [hbehind] at hb
      exact ⟨_, _, takeCount_success_iff.2 ⟨by omega, rfl, rfl⟩⟩
  · intro rest value rest' value' last all hfirst hsecond hboth
    obtain ⟨-, rfl, rfl⟩ := takeCount_success_iff.1 hfirst
    obtain ⟨-, rfl, rfl⟩ := takeCount_success_iff.1 hsecond
    obtain ⟨-, rfl, rfl⟩ := takeCount_success_iff.1 hboth
    have hfirstLe := countEnd_le a input
    have hsecondLe := countEnd_le b (View.drop input (countEnd a input))
    have hsum := countEnd_add a b input
    have hbothLe := countEnd_le (a + b) input
    obtain ⟨last, consumed, hlast, hR⟩ := h _ _ _ _ (View.takeSplit_ofNat input _ hfirstLe)
      (View.takeSplit_ofNat _ _ hsecondLe)
    obtain ⟨-, rfl, -⟩ := View.takeSplit_ofNat_eq_ok hlast
    constructor
    · rwa [hsum]
    · rw [View.length_take, View.length_take, View.length_take, Nat.min_eq_left hbothLe, Nat.min_eq_left hfirstLe,
        Nat.min_eq_left hsecondLe, hsum]

end Primitive

open Primitive

namespace Bytes

/-- the same window on the same buffer, whatever its position is said to be -/
def SameWindow (v w : Bytes) : Prop := v.toSpan = w.toSpan ∧ v.buffer = w.buffer

theorem restsCompose_sameWindow (v : Bytes) (a b : Nat) : View.RestsCompose SameWindow v a b := by
  apply View.restsCompose_of_drop
  intro _
  exact ⟨View.span_drop_drop v a b, rfl⟩

/-- of octets, a count takes up no more units than it counts -/
theorem countEnd_le_count (count : Nat) (v : Bytes) : countEnd count v ≤ count := by
  have hunits : ∀ u ∈ (View.members v).take count, (Alphabet.units u : List UInt8).length = 1 := fun _ _ => rfl
  rw [countEnd, extent_eq_length _ hunits]
  exact List.length_take_le _ _

/-- from a safe position, and while their sum stays in reach, two counts leave the position that their sum leaves -/
theorem restsCompose_countEnd {v : Bytes} {o : Int} {a b : Nat} (hv : v.offset = .ofInt o) (hsafe : o.natAbs < 2 ^ 53)
    (hreach : (o + (a + b : Nat)).natAbs ≤ 2 ^ 53) :
    View.RestsCompose Eq v (countEnd a v) (countEnd b (View.drop v (countEnd a v))) := by
  have ha := countEnd_le_count a v
  have hb := countEnd_le_count b (View.drop v (countEnd a v))
  have hv : v.offset = .ofInt (o + (0 : Nat)) := by rw [hv, Int.natCast_zero, Int.add_zero]
  apply restsCompose hsafe hv
  omega

end Bytes

/-- **Taking is exact and additive.** An input that is too short fails for lack of input, at the input itself. -/
theorem counts_add_up {E : Type} :
    (∀ (errors : ErrorStrategy Text E) (a b : Nat), ∃ first second both,
      (Primitive.take (.ofNat a) : Primitive Text Element).build errors = .ok first ∧
      (Primitive.take (.ofNat b) : Primitive Text Element).build errors = .ok second ∧
      (Primitive.take (.ofNat (a + b)) : Primitive Text Element).build errors = .ok both ∧
      ∀ input : Text, TakesFirst errors a first input ∧ AddsUp Eq first second both input) ∧
    (∀ (errors : ErrorStrategy Bytes E) (a b : Nat), ∃ first second both,
      (Primitive.take (.ofNat a) : Primitive Bytes UInt8).build errors = .ok first ∧
      (Primitive.take (.ofNat b) : Primitive Bytes UInt8).build errors = .ok second ∧
      (Primitive.take (.ofNat (a + b)) : Primitive Bytes UInt8).build errors = .ok both ∧
      ∀ input : Bytes, TakesFirst errors a first input ∧ AddsUp Bytes.SameWindow first second both input ∧
        ∀ o : Int, input.offset = .ofInt o → o.natAbs < 2 ^ 53 → (o + (a + b : Nat)).natAbs ≤ 2 ^ 53 →
          AddsUp Eq first second both input) := by
  refine ⟨?_, ?_⟩
  · intro errors a b
    refine ⟨_, _, _, take_ofNat errors a, take_ofNat errors b, take_ofNat errors (a + b), ?_⟩
    intro input
    exact ⟨takeCount_takesFirst errors a input, takeCount_addsUp errors a b input (Text.restsCompose input _ _)⟩
  · intro errors a b
    refine ⟨_, _, _, take_ofNat errors a, take_ofNat errors b, take_ofNat errors (a + b), ?_⟩
    intro input
    refine ⟨takeCount_takesFirst errors a input,
      takeCount_addsUp errors a b input (Bytes.restsCompose_sameWindow input _ _), ?_⟩
    intro o ho hsafe hreach
    exact takeCount_addsUp errors a b input (Bytes.restsCompose_countEnd ho hsafe hreach)

/-- behind the half of a pair that the window cuts, two counts that end between pairs; octets up to the last place in
reach -/
theorem counts_add_up_between_pairs :
    let input : Text := ⟨⟨[0xD83D, 0xDE00, 0xD83D, 0xDE01, 0x61], 1, 5, by decide, by decide⟩⟩
    let take (count : Nat) : Parser Text Text (SimpleError Text) := Parser.takeCount count .simple
    let octets : Bytes := .ofOctets [1, 2, 3] 0 (.ofInt (2 ^ 53 - 3))
    let takeOctets (count : Nat) : Parser Bytes Bytes (SimpleError Bytes) := Parser.takeCount count .simple
    AddsUp Eq (take 1) (take 1) (take 2) input ∧
    take 1 input = .ok (.success (View.drop input 1) (View.take input 1)) ∧
    take 2 input = .ok (.success (View.drop input 3) (View.take input 3)) ∧
    View.elements (View.take input 3) = [(0, .unit 0xDE00), (1, .pair 0xD83D 0xDE01)] ∧
    TakesFirst .simple 4 (take 4) input ∧
    octets.offset = .ofInt (2 ^ 53 - 3) ∧ ((2 : Int) ^ 53 - 3 + (2 + 1 : Nat)).natAbs ≤ 2 ^ 53 ∧
    AddsUp Eq (takeOctets 2) (takeOctets 1) (takeOctets 3) octets := by
  intro input take octets takeOctets
  obtain ⟨one, one', two, hone, hone', htwo, hall⟩ := (counts_add_up (E := SimpleError Text)).1 .simple 1 1
  obtain rfl : take 1 = one := Except.ok.inj ((take_ofNat .simple 1).symm.trans hone)
  obtain rfl : take 1 = one' := Except.ok.inj ((take_ofNat .simple 1).symm.trans hone')
  obtain rfl : take 2 = two := Except.ok.inj ((take_ofNat .simple 2).symm.trans htwo)
  obtain ⟨four, zero, both, hfour, -, -, hshort⟩ := (counts_add_up (E := SimpleError Text)).1 .simple 4 0
  obtain rfl : take 4 = four := Except.ok.inj ((take_ofNat .simple 4).symm.trans hfour)
  obtain ⟨front, back, whole, hfront, hback, hwhole, hoctets⟩ :=
    (counts_add_up (E := SimpleError Bytes)).2 .simple 2 1
  obtain rfl : takeOctets 2 = front := Except.ok.inj ((take_ofNat .simple 2).symm.trans hfront)
  obtain rfl : takeOctets 1 = back := Except.ok.inj ((take_ofNat .simple 1).symm.trans hback)
  obtain rfl : takeOctets 3 = whole := Except.ok.inj ((take_ofNat .simple 3).symm.trans hwhole)
  have hreach : ((2 : Int) ^ 53 - 3 + (2 + 1 : Nat)).natAbs ≤ 2 ^ 53 := by decide
  exact ⟨(hall input).2, rfl, rfl, rfl, (hshort input).1, rfl, hreach, (hoctets octets).2.2 _ rfl (by decide) hreach⟩

/-- two counts that lead across the last position in reach: the rest of the one is not the rest of the other -/
theorem rests_differ_far_out :
    let input : Bytes := .ofOctets [1, 2, 3] 0 (.ofInt (2 ^ 53 - 1))
    let take (count : Nat) : Parser Bytes Bytes (SimpleError Bytes) := Parser.takeCount count .simple
    let rest : Bytes := View.drop input 2
    input.offset.IsSafe ∧
    take 2 input = .ok (.success rest (View.take input 2)) ∧
    take 1 rest = .ok (.success (View.drop rest 1) (View.take rest 1)) ∧
    take 3 input = .ok (.success (View.drop input 3) (View.take input 3)) ∧
    View.drop rest 1 ≠ View.drop input 3 ∧
    ¬ AddsUp Eq (take 2) (take 1) (take 3) input := by
  intro input take rest
  have hoffset : (View.drop rest 1 : Bytes).offset ≠ (View.drop input 3 : Bytes).offset := by decide +kernel
  have hrests : View.drop rest 1 ≠ View.drop input 3 := fun heq => hoffset (congrArg Bytes.offset heq)
  refine ⟨⟨2 ^ 53 - 1, rfl, by decide⟩, rfl, rfl, rfl, hrests, ?_⟩
  intro hadds
  exact hrests (hadds.same _ _ _ _ _ _ rfl rfl rfl).1

end SliceParser
