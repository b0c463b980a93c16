/-
WHAT THE LAWS PIN DOWN on texts: which outcomes break none of them, and which of them an outcome can break.

- `mem_broken_iff`: a law is reported when its verdict on the outcome is negative.
- `Text.eq_take`, `Text.eq_drop`: the place of a text view pins the view down. What begins where the input begins is
  the front of the input, and what ends where the input ends is its back.
- `Text.eq_cut_of_concatenates`: two views that pass the law of concatenation are the two sides of a cut, however they
  were made.
- `laws_exact_on_text`: **a parser of texts breaks no law on an input exactly when it fails with an error or cuts the
  input**. Monotonic consumption is never reported alone, determinism and totality never, completeness exactly where
  more input is asked for.
-/
import SliceParser.Proofs.Parser.Laws

namespace SliceParser

namespace ParserLaw

variable {V κ ω E : Type} [Position ω] [View V κ ω]

theorem mem_all (law : ParserLaw) : law ∈ all := by
  cases law <;> decide

/-- **A law is reported when its verdict is negative.** -/
theorem mem_broken_iff {eqError : E → E → Bool} {input : V} {outcome : Outcome V V E} {law : ParserLaw} :
    (law ∈ all.filter fun law => !judge eqError input outcome law) ↔ judge eqError input outcome law = false := by
  rw [List.mem_filter, Bool.not_eq_true']
  exact and_iff_right (mem_all law)

/-- where the match and the rest add up to the input, they also add up to it one by one -/
theorem consumesMonotonically_of_concatenates {input : V} {outcome : Outcome V V E}
    (h : concatenates input outcome = true) : consumesMonotonically input outcome = true := by
  cases outcome with
  | failed err => rfl
  | success rest value =>
    simp only [concatenates, Bool.and_eq_true, decide_eq_true_eq] at h
    simp only [consumesMonotonically, Bool.and_eq_true, decide_eq_true_eq]
    omega

theorem isComplete_eq_false {outcome : Outcome V V E} :
    isComplete outcome = false ↔ ∃ needed, outcome = .failed (.incomplete needed) := by
  cases outcome with
  | success rest value => simp [isComplete]
  | failed err => cases err <;> simp [isComplete]

/-- an outcome is the same as itself, where places and errors are -/
theorem sameOutcome_self {eqError : E → E → Bool} (heq : ∀ e, eqError e e = true)
    (hplace : ∀ v : V, samePlace v v = true) (outcome : Outcome V V E) : sameOutcome eqError outcome outcome = true := by
  cases outcome with
  | success rest value => rw [sameOutcome, hplace, hplace, Bool.and_self]
  | failed err =>
    cases err with
    | incomplete needed => rfl
    | recoverable e => exact heq e
    | unrecoverable e => exact heq e

end ParserLaw

/-! ## Text views by their place -/

namespace Text

theorem eq_take {input value : Text} (hbase : value.base = input.base) (hstart : value.start = input.start)
    (hlength : View.length value ≤ View.length input) : value = View.take input (View.length value) :=
  congrArg Text.mk (Span.eq_take hbase hstart hlength)

theorem eq_drop {input rest : Text} {k : Nat} (hbase : rest.base = input.base) (hstart : rest.start = input.start + k)
    (hlength : k + View.length rest = View.length input) : rest = View.drop input k :=
  congrArg Text.mk (Span.eq_drop hbase hstart hlength)

open ParserLaw in
/-- two views that pass the law of concatenation are the sides of a cut, however they were made -/
theorem eq_cut_of_concatenates {E : Type} {input rest value : Text}
    (h : concatenates input (.success rest value : Outcome Text Text E) = true) :
    View.length value ≤ View.length input ∧ rest = View.drop input (View.length value) ∧
      value = View.take input (View.length value) := by
  simp only [concatenates, Bool.and_eq_true, decide_eq_true_eq] at h
  obtain ⟨⟨⟨⟨hvalueBase, hrestBase⟩, hvalue⟩, hrest⟩, hlength⟩ := h
  have hvalueBase : value.base = input.base := of_decide_eq_true hvalueBase
  have hrestBase : rest.base = input.base := of_decide_eq_true hrestBase
  have hvalue : value.start = input.start := of_decide_eq_true hvalue
  have hrest : rest.start = input.start + View.length value := of_decide_eq_true hrest
  have hle : View.length value ≤ View.length input := by omega
  exact ⟨hle, eq_drop hrestBase hrest hlength, eq_take hvalueBase hvalue hle⟩

end Text

/-! ## The laws on texts -/

namespace ParserLaw

/-- what a parser may answer that breaks no law: an error, or the two sides of a cut of its input -/
def AllowsOnText {E : Type} (input : Text) : Outcome Text Text E → Prop
  | .success rest value =>
    View.takeTo input (.ofNat (View.length value)) = .ok value ∧
      ∃ front, View.takeSplit input (.ofNat (View.length value)) = .ok (rest, front)
  | .failed err => err.isIncomplete = false

theorem allowsOnText_iff {E : Type} {input : Text} {outcome : Outcome Text Text E} :
    AllowsOnText input outcome ↔ concatenates input outcome = true ∧ isComplete outcome = true := by
  cases outcome with
  | success rest value =>
    constructor
    · rintro ⟨htake, front, hsplit⟩
      obtain ⟨hle, hvalue⟩ := View.takeTo_eq_ok.1 htake
      rw [View.takeSplit_ofNat input _ hle] at hsplit
      obtain ⟨rfl, -⟩ := Prod.mk.inj (Except.ok.inj hsplit)
      have hcut := View.isCut input hle
      rw [← hvalue] at hcut
      exact ⟨concatenates_of_cut hcut (Position.steady_nat _), rfl⟩
    · rintro ⟨hconcatenates, -⟩
      obtain ⟨hle, hrest, hvalue⟩ := Text.eq_cut_of_concatenates hconcatenates
      refine ⟨View.takeTo_eq_ok.2 ⟨hle, hvalue⟩, View.take input (View.length value), ?_⟩
      rw [View.takeSplit_ofNat input _ hle, ← hrest]
  | failed err => cases err <;> simp [AllowsOnText, Err.isIncomplete, concatenates, isComplete]

end ParserLaw

open ParserLaw

/-- **The laws are exact on texts.** -/
theorem laws_exact_on_text {E : Type} (eqError : E → E → Bool) (heq : ∀ e, eqError e e = true)
    (parser : Parser Text Text E) (input : Text) (outcome : Outcome Text Text E) (hrun : parser input = .ok outcome) :
    ∃ broken, brokenLaws eqError parser input = .ok broken ∧
      (broken = [] ↔ AllowsOnText input outcome) ∧
      (∀ rest value, broken = [] → outcome = .success rest value →
        View.text value ++ View.text rest = View.text input) ∧
      (ParserLaw.monotonicConsumption ∈ broken → ParserLaw.concatenation ∈ broken) ∧
      ParserLaw.determinism ∉ broken ∧ ParserLaw.totality ∉ broken ∧
      (ParserLaw.completeness ∈ broken ↔ ∃ needed, outcome = .failed (.incomplete needed)) ∧
      (broken.map ParserLaw.name).Sublist
        ["concatenation", "monotonic consumption", "determinism", "totality", "completeness"] := by
  have hplace : ∀ v : Text, samePlace v v = true := fun v => samePlace_self (Position.steady_nat _).1
  have hdeterminism : judge eqError input outcome .determinism = true := sameOutcome_self heq hplace outcome
  -- the verdicts on concatenation and completeness decide whether anything is reported
  have hnil : (ParserLaw.all.filter fun law => !judge eqError input outcome law) = [] ↔
      concatenates input outcome = true ∧ isComplete outcome = true := by
    rw [List.filter_eq_nil_iff]
    constructor
    · intro hall
      have hholds : ∀ law, judge eqError input outcome law = true := fun law => by simpa using hall law (mem_all law)
      exact ⟨hholds .concatenation, hholds .completeness⟩
    · rintro ⟨hconcatenates, hcomplete⟩ law -
      rw [Bool.not_eq_true', Bool.not_eq_false]
      cases law with
      | concatenation => exact hconcatenates
      | monotonicConsumption => exact consumesMonotonically_of_concatenates hconcatenates
      | determinism => exact hdeterminism
      | totality => rfl
      | completeness => exact hcomplete
  refine ⟨_, brokenLaws_eq_filter hrun, hnil.trans allowsOnText_iff.symm, ?_, ?_, ?_, ?_, ?_, ?_⟩
  · rintro rest value hbroken rfl
    obtain ⟨hle, hrest, hvalue⟩ := Text.eq_cut_of_concatenates (hnil.1 hbroken).1
    have hcut := View.isCut input hle
    rw [← hrest, ← hvalue] at hcut
    exact hcut.content_append
  · rw [mem_broken_iff, mem_broken_iff]
    intro hmonotonic
    by_contra hconcatenation
    rw [Bool.not_eq_false] at hconcatenation
    have hholds := consumesMonotonically_of_concatenates hconcatenation
    exact absurd (hholds.symm.trans hmonotonic) (by decide)
  · rw [mem_broken_iff, hdeterminism]
    decide
  · rw [mem_broken_iff]
    exact Bool.noConfusion
  · rw [mem_broken_iff]
    exact isComplete_eq_false
  · exact List.filter_sublist.map ParserLaw.name

/-- a window of its own making passes where it lies as a cut does, and does not where the rest begins too early -/
theorem laws_find_overlapping_rest :
    let input : Text := ⟨⟨[0x61, 0xD83D, 0xDE00, 0x62], 1, 4, by decide, by decide⟩⟩
    let value : Text := ⟨⟨[0x61, 0xD83D, 0xDE00, 0x62], 1, 2, by decide, by decide⟩⟩
    let behind : Text := ⟨⟨[0x61, 0xD83D, 0xDE00, 0x62], 2, 4, by decide, by decide⟩⟩
    let overlapping : Text := ⟨⟨[0x61, 0xD83D, 0xDE00, 0x62], 1, 3, by decide, by decide⟩⟩
    let eqError : Unit → Unit → Bool := fun _ _ => true
    let cuts : Parser Text Text Unit := fun _ => .ok (.success behind value)
    let overlaps : Parser Text Text Unit := fun _ => .ok (.success overlapping value)
    (∀ e, eqError e e = true) ∧
    AllowsOnText (E := Unit) input (.success behind value) ∧ brokenLaws eqError cuts input = .ok [] ∧
    ¬ AllowsOnText (E := Unit) input (.success overlapping value) ∧
    brokenLaws eqError overlaps input = .ok [.concatenation] := by
  intro input value behind overlapping eqError cuts overlaps
  have heq : ∀ e, eqError e e = true := fun _ => rfl
  obtain ⟨broken, hbroken, hnil, -⟩ := laws_exact_on_text eqError heq cuts input _ rfl
  obtain ⟨broken', hbroken', hnil', -⟩ := laws_exact_on_text eqError heq overlaps input _ rfl
  have hfound : brokenLaws eqError overlaps input = .ok [.concatenation] := rfl
  have hallowed : AllowsOnText (E := Unit) input (.success behind value) := by
    rw [allowsOnText_iff]
    decide
  refine ⟨heq, hallowed, ?_, ?_, hfound⟩
  · rw [hbroken, hnil.2 hallowed]
  · rw [← hnil']
    rintro rfl
    exact nomatch hbroken'.symm.trans hfound

end SliceParser
