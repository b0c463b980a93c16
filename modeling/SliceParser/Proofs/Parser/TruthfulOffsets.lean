/-
WHAT THE LAW OF CONCATENATION PINS DOWN on octets, where a position is a number that whoever makes a view may choose.

- `Bytes.Truthful`: the position of a view says where the view begins, as far behind the position of the input as its
  first octet lies behind that of the input.
- `Bytes.truthful_of_obtained`: whatever is cut from the input is truthful as far as positions are in reach.
- `Bytes.eq_cut_of_concatenates`: two truthful views that pass the law are the two sides of a cut, however they were made.
- `concatenation_exact_on_truthful_octets`: **on truthful views in reach the law is passed exactly by cuts**, and so the
  match and the rest hold the octets of the input.
- `concatenation_passes_other_octets`: neither condition can be left out. Far out a position is rounded to that of a
  neighbour, and a view may be made with the position of another.
-/
import SliceParser.Proofs.Parser.Laws
import SliceParser.Proofs.Primitive.Obtained

namespace SliceParser

namespace Bytes

/-! ## Positions that tell the place -/

/-- the view lies as far behind the input as its position says -/
def Truthful (input v : Bytes) : Prop :=
  View.displacement v input = some ((v.start : Int) - input.start)

theorem start_eq_of_truthful {input v : Bytes} {o : Int} {k : Nat} (hinput : input.offset = .ofInt o)
    (hoffset : v.offset = .ofInt (o + k)) (h : Truthful input v) : v.start = input.start + k := by
  have hdisplacement : View.displacement v input = some (o + k - o) := View.displacement_of_ofInt hoffset hinput
  have hplace := Option.some.inj (h.symm.trans hdisplacement)
  omega

/-- what is cut from the input is truthful, as far as its place is in reach -/
theorem truthful_of_obtained {input : Bytes} (hsafe : input.offset.IsSafe) (run : List (Nat × Cutting Bytes UInt8))
    {v : Bytes} (hv : v ∈ obtained input run) (hreach : View.InReach input (v.start - input.start)) :
    Truthful input v := by
  obtain ⟨o, ho, hbound⟩ := hsafe
  have hinput : View.offsetNumber input = .ofInt o := ho
  obtain ⟨d, hwindow, -, hoffset⟩ := obtained_isExactPart ho hbound run v hv
  have hstart : v.start = input.start + d := hwindow.start_eq
  rw [hstart, Nat.add_sub_cancel_left] at hreach
  have hplace : View.offsetNumber v = .ofInt (o + d) := hoffset ((View.inReach_iff hinput d).1 hreach)
  rw [Truthful, View.displacement_of_ofInt hplace hinput, hstart]
  congr 1
  omega

/-! ## Views by their place -/

theorem eq_take {input value : Bytes} (hbuffer : value.buffer = input.buffer) (hbase : value.base = input.base)
    (hoffset : value.offset = input.offset) (hstart : value.start = input.start)
    (hlength : View.length value ≤ View.length input) : value = View.take input (View.length value) := by
  have hspan : value.toSpan = input.toSpan.take (View.length value) := Span.eq_take hbase hstart hlength
  calc value = ⟨value.toSpan, value.buffer, value.offset⟩ := rfl
    _ = ⟨input.toSpan.take (View.length value), input.buffer, input.offset⟩ := by rw [hbuffer, hoffset, hspan]

theorem eq_drop {input rest : Bytes} {k : Nat} (hbuffer : rest.buffer = input.buffer) (hbase : rest.base = input.base)
    (hoffset : rest.offset = Position.advance input.offset k) (hstart : rest.start = input.start + k)
    (hlength : k + View.length rest = View.length input) : rest = View.drop input k := by
  have hspan : rest.toSpan = input.toSpan.drop k := Span.eq_drop hbase hstart hlength
  have hle : k ≤ View.length input := by omega
  have hmoved : (View.drop input k : Bytes).offset = rest.offset :=
    (View.offset_drop input k hle).trans hoffset.symm
  calc rest = ⟨rest.toSpan, rest.buffer, rest.offset⟩ := rfl
    _ = ⟨input.toSpan.drop k, input.buffer, (View.drop input k : Bytes).offset⟩ := by rw [hbuffer, hmoved, hspan]

open ParserLaw in
/-- two truthful views that pass the law of concatenation are the sides of a cut, however they were made -/
theorem eq_cut_of_concatenates {E : Type} {input rest value : Bytes} (hreach : View.InReach input (View.length value))
    (hvalue : Truthful input value) (hrest : Truthful input rest)
    (h : concatenates input (.success rest value : Outcome Bytes Bytes E) = true) :
    View.length value ≤ View.length input ∧ rest = View.drop input (View.length value) ∧
      value = View.take input (View.length value) := by
  obtain ⟨o, ho, hsum⟩ := hreach
  have ho : input.offset = .ofInt o := ho
  simp only [concatenates, View.sameBase, Position.same, Number.same, Bool.and_eq_true, decide_eq_true_eq] at h
  obtain ⟨⟨⟨⟨⟨hvalueBuffer, hvalueBase⟩, hrestBuffer, hrestBase⟩, -, hvalueOffset⟩, -, hrestOffset⟩, hlength⟩ := h
  have hvalueOffset : value.offset = input.offset := hvalueOffset
  have hrestOffset : rest.offset = Position.advance input.offset (View.length value) := hrestOffset
  have hle : View.length value ≤ View.length input := by omega
  -- both positions are exact, and so both places are known
  have hmoved : rest.offset = .ofInt (o + View.length value) := by
    rw [hrestOffset, ho]
    exact Number.add_ofNat hsum
  have hvalueStart : value.start = input.start := by
    have hstay : value.offset = .ofInt (o + (0 : Nat)) := by rw [hvalueOffset, ho, Int.natCast_zero, Int.add_zero]
    exact start_eq_of_truthful ho hstay hvalue
  have hrestStart : rest.start = input.start + View.length value := start_eq_of_truthful ho hmoved hrest
  exact ⟨hle, eq_drop hrestBuffer hrestBase hrestOffset hrestStart hlength,
    eq_take hvalueBuffer hvalueBase hvalueOffset hvalueStart hle⟩

end Bytes

open ParserLaw Bytes

theorem check_concatenation {V κ ω E : Type} [Position ω] [View V κ ω] {eqError : E → E → Bool} {parser : Parser V V E}
    {input rest value : V} (h : parser input = .ok (.success rest value)) :
    check eqError parser input .concatenation = .ok (concatenates input (.success rest value : Outcome V V E)) :=
  check_eq_judge h .concatenation

/-- **On truthful views in reach the law of concatenation is passed exactly by cuts**, and every view that is cut from
the input is truthful as far as its place is in reach. -/
theorem concatenation_exact_on_truthful_octets {E : Type} (eqError : E → E → Bool) (parser : Parser Bytes Bytes E)
    (input : Bytes) (hsafe : input.offset.IsSafe) :
    (∀ rest value, parser input = .ok (.success rest value) → View.InReach input (View.length value) →
      Truthful input value → Truthful input rest →
        (check eqError parser input .concatenation = .ok true ↔ ∃ k, View.IsCut input k rest value) ∧
        (check eqError parser input .concatenation = .ok true →
          View.content value ++ View.content rest = View.content input)) ∧
    (∀ run : List (Nat × Cutting Bytes UInt8), ∀ v ∈ obtained input run,
      View.InReach input (v.start - input.start) → Truthful input v) := by
  refine ⟨?_, fun run v hv hreach => truthful_of_obtained hsafe run hv hreach⟩
  intro rest value hrun hreach hvalue hrest
  have hexact : check eqError parser input .concatenation = .ok true ↔ ∃ k, View.IsCut input k rest value := by
    rw [check_concatenation hrun]
    constructor
    · intro hpassed
      obtain ⟨hle, hdrop, htake⟩ := eq_cut_of_concatenates hreach hvalue hrest (Except.ok.inj hpassed)
      have hcut := View.isCut input hle
      rw [← hdrop, ← htake] at hcut
      exact ⟨_, hcut⟩
    · intro ⟨k, hcut⟩
      rw [concatenates_of_cut hcut (Position.steady_number hsafe.ne_nan)]
  refine ⟨hexact, fun hpassed => ?_⟩
  obtain ⟨k, hcut⟩ := hexact.1 hpassed
  exact hcut.content_append

/-- views made by hand over a part of a buffer, up to the last place in reach, against a rest that begins too early -/
theorem concatenation_finds_overlapping_octets :
    let base : List UInt8 := [9, 1, 2, 3]
    let input : Bytes := ⟨⟨base, 1, 4, by decide, by decide⟩, 5, .ofInt (2 ^ 53 - 2)⟩
    let value : Bytes := ⟨⟨base, 1, 3, by decide, by decide⟩, 5, .ofInt (2 ^ 53 - 2)⟩
    let behind : Bytes := ⟨⟨base, 3, 4, by decide, by decide⟩, 5, .ofInt (2 ^ 53)⟩
    let overlapping : Bytes := ⟨⟨base, 2, 3, by decide, by decide⟩, 5, .ofInt (2 ^ 53 - 1)⟩
    let eqError : Unit → Unit → Bool := fun _ _ => true
    let cuts : Parser Bytes Bytes Unit := fun _ => .ok (.success behind value)
    let overlaps : Parser Bytes Bytes Unit := fun _ => .ok (.success overlapping value)
    input.offset.IsSafe ∧ View.InReach input (View.length value) ∧
    Truthful input value ∧ Truthful input behind ∧ Truthful input overlapping ∧
    check eqError cuts input .concatenation = .ok true ∧
    View.content value ++ View.content behind = View.content input ∧
    ¬ check eqError overlaps input .concatenation = .ok true := by
  intro base input value behind overlapping eqError cuts overlaps
  have hsafe : input.offset.IsSafe := ⟨2 ^ 53 - 2, rfl, by decide⟩
  have hreach : View.InReach input (View.length value) := ⟨2 ^ 53 - 2, rfl, by decide⟩
  have hvalue : Truthful input value := by unfold Truthful; decide +kernel
  have hbehind : Truthful input behind := by unfold Truthful; decide +kernel
  have hoverlapping : Truthful input overlapping := by unfold Truthful; decide +kernel
  obtain ⟨hpassed, hcontent⟩ := (concatenation_exact_on_truthful_octets eqError cuts input hsafe).1 behind value rfl
    hreach hvalue hbehind
  obtain ⟨hpassed', -⟩ := (concatenation_exact_on_truthful_octets eqError overlaps input hsafe).1 overlapping value rfl
    hreach hvalue hoverlapping
  have hcut : check eqError cuts input .concatenation = .ok true := by
    have hverdict : concatenates input (.success behind value : Outcome Bytes Bytes Unit) = true := by decide +kernel
    exact (check_concatenation rfl).trans (congrArg Except.ok hverdict)
  refine ⟨hsafe, hreach, hvalue, hbehind, hoverlapping, hcut, hcontent hcut, ?_⟩
  rw [hpassed']
  intro ⟨k, hoverlap⟩
  exact absurd hoverlap.content_append (by decide)

/-- cuts that a rounded position puts one octet too far, and a match that is made with the position of the input -/
theorem concatenation_passes_other_octets :
    let far : Bytes := .ofOctets [1, 2, 3] 0 (.ofInt (2 ^ 53 - 1))
    let near : Bytes := .ofOctets [1, 2] 0 (.ofInt 0)
    let eqError : Unit → Unit → Bool := fun _ _ => true
    let overlaps : Parser Bytes Bytes Unit := fun v => .ok (.success (View.take (View.drop v 1) 1) (View.take v 2))
    let relabels : Parser Bytes Bytes Unit := fun v =>
      .ok (.success (View.drop v 1) { View.drop v 1 with offset := v.offset })
    far.offset.IsSafe ∧ check eqError overlaps far .concatenation = .ok true ∧
    (∃ rest value, overlaps far = .ok (.success rest value) ∧
      View.content value ++ View.content rest ≠ View.content far) ∧
    near.offset.IsSafe ∧ check eqError relabels near .concatenation = .ok true ∧
    (∃ rest value, relabels near = .ok (.success rest value) ∧
      View.content value ++ View.content rest ≠ View.content near) := by
  intro far near eqError overlaps relabels
  have hfar : check eqError overlaps far .concatenation = .ok true := by
    have hverdict : concatenates far (.success (View.take (View.drop far 1) 1) (View.take far 2) :
        Outcome Bytes Bytes Unit) = true := by decide +kernel
    exact (check_concatenation rfl).trans (congrArg Except.ok hverdict)
  have hnear : check eqError relabels near .concatenation = .ok true := by
    have hverdict : concatenates near (.success (View.drop near 1) { View.drop near 1 with offset := near.offset } :
        Outcome Bytes Bytes Unit) = true := by decide +kernel
    exact (check_concatenation rfl).trans (congrArg Except.ok hverdict)
  exact ⟨⟨2 ^ 53 - 1, rfl, by decide⟩, hfar, ⟨_, _, rfl, by decide⟩,
    ⟨0, rfl, by decide⟩, hnear, ⟨_, _, rfl, by decide⟩⟩

end SliceParser
