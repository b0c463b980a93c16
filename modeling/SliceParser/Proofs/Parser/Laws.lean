/-
LAW CHECKS: what the laws say of a parser that has an outcome on an input.

- `judge`: each law as a verdict on the outcome alone. A check that runs the parser comes to the same verdict
  (`check_eq_judge`), and so the broken laws are those whose verdict is negative, in their order
  (`brokenLaws_eq_filter`).
- `brokenLaws_of_cut`: **a success that is a cut of the input breaks no law**, if the position of the input is one
  that can be found again.
- `brokenLaws_of_error`: an error breaks no law, if errors are compared reflexively.
-/
import SliceParser.Parser.Laws
import SliceParser.Proofs.View.Cut

namespace SliceParser

variable {V κ ω E : Type} [Position ω] [View V κ ω]

namespace ParserLaw

/-! ## Verdicts -/

/-- the verdict of a law on the one outcome that a parser has on an input -/
def judge (eqError : E → E → Bool) (input : V) (outcome : Outcome V V E) : ParserLaw → Bool
  | .concatenation => concatenates input outcome
  | .monotonicConsumption => consumesMonotonically input outcome
  | .determinism => sameOutcome eqError outcome outcome
  | .totality => true
  | .completeness => isComplete outcome

theorem check_eq_judge {eqError : E → E → Bool} {parser : Parser V V E} {input : V} {outcome : Outcome V V E}
    (h : parser input = .ok outcome) (law : ParserLaw) :
    check eqError parser input law = .ok (judge eqError input outcome law) := by
  cases law <;> simp only [check, h] <;> rfl

theorem broken_eq_filter {eqError : E → E → Bool} {parser : Parser V V E} {input : V} {outcome : Outcome V V E}
    (h : parser input = .ok outcome) (laws : List ParserLaw) :
    broken eqError parser input laws = .ok (laws.filter fun law => !judge eqError input outcome law) := by
  induction laws with
  | nil => rfl
  | cons law laws ih =>
    simp only [broken, check_eq_judge h, ih, bind, Except.bind, pure, Except.pure, List.filter_cons]
    cases judge eqError input outcome law <;> rfl

end ParserLaw

open ParserLaw

theorem brokenLaws_eq_filter {eqError : E → E → Bool} {parser : Parser V V E} {input : V} {outcome : Outcome V V E}
    (h : parser input = .ok outcome) :
    brokenLaws eqError parser input = .ok (ParserLaw.all.filter fun law => !judge eqError input outcome law) :=
  broken_eq_filter h ParserLaw.all

/-! ## Outcomes that break no law -/

theorem brokenLaws_of_judge {eqError : E → E → Bool} {parser : Parser V V E} {input : V} {outcome : Outcome V V E}
    (h : parser input = .ok outcome) (hall : ∀ law, judge eqError input outcome law = true) :
    brokenLaws eqError parser input = .ok [] := by
  rw [brokenLaws_eq_filter h]
  simp [hall]

theorem samePlace_self {v : V} (h : Position.same (View.offset v) (View.offset v) = true) : samePlace v v = true := by
  simp [samePlace, h]

theorem concatenates_of_cut {input rest value : V} {k : Nat} (hcut : View.IsCut input k rest value)
    (hsteady : Position.Steady (View.offset input)) :
    concatenates input (.success rest value : Outcome V V E) = true := by
  obtain ⟨hself, hmoved⟩ := hsteady
  simp [concatenates, hcut.sameBase_rest, hcut.sameBase_value, hcut.offset_rest, hcut.offset_value,
    hcut.length_value, hself, hmoved, ← hcut.length_add]

/-- **A cut of the input breaks no law.** -/
theorem brokenLaws_of_cut {eqError : E → E → Bool} {parser : Parser V V E} {input rest value : V} {k : Nat}
    (h : parser input = .ok (.success rest value)) (hcut : View.IsCut input k rest value)
    (hsteady : Position.Steady (View.offset input)) : brokenLaws eqError parser input = .ok [] := by
  have hlen := hcut.length_add
  have hconcatenates := concatenates_of_cut (E := E) hcut hsteady
  obtain ⟨hself, hmoved⟩ := hsteady
  apply brokenLaws_of_judge h
  intro law
  cases law with
  | concatenation => exact hconcatenates
  | monotonicConsumption =>
    simp only [judge, consumesMonotonically, Bool.and_eq_true, decide_eq_true_eq]
    omega
  | determinism =>
    have hrest : samePlace rest rest = true := samePlace_self (by rw [hcut.offset_rest]; exact hmoved k)
    have hvalue : samePlace value value = true := samePlace_self (by rw [hcut.offset_value]; exact hself)
    simp [judge, sameOutcome, hrest, hvalue]
  | totality => rfl
  | completeness => rfl

theorem brokenLaws_of_error {eqError : E → E → Bool} {parser : Parser V V E} {input : V} {e : E}
    (h : parser input = .ok (.error e)) (heq : eqError e e = true) : brokenLaws eqError parser input = .ok [] := by
  apply brokenLaws_of_judge h
  intro law
  cases law with
  | determinism => exact heq
  | _ => rfl

end SliceParser
