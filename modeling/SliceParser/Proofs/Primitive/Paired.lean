/-
PAIRED RUNS: two primitives, each on a view of its own class, that come to the same verdict.

- `SameVerdict`: both outcomes are successes whose rests and values are related, or both are recoverable errors of the
  same kind, each at its own input.
- `Agree`: both runs have an outcome, and these are the same verdict.
- `build_agree`: **runs agree when both primitives match and cut alike, or neither matches.** The offsets they match up
  to may differ, as each counts units of its own class.
-/
import SliceParser.Proofs.Primitive.Answer

namespace SliceParser

namespace Primitive

variable {V W E F : Type}

/-- both succeed with related rests and values, or both fail with an error of one kind at their own inputs -/
def SameVerdict (R : V → W → Prop) (errors : ErrorStrategy V E) (errors' : ErrorStrategy W F) (v : V) (w : W) :
    Outcome V V E → Outcome W W F → Prop
  | .success rest value, .success rest' value' => R rest rest' ∧ R value value'
  | .failed err, .failed err' =>
    ∃ kind, err = .recoverable (errors.fromKind v kind) ∧ err' = .recoverable (errors'.fromKind w kind)
  | _, _ => False

/-- neither run is stopped by a fault, and both come to the same verdict -/
def Agree (R : V → W → Prop) (errors : ErrorStrategy V E) (errors' : ErrorStrategy W F) (v : V) (w : W)
    (run : Except Fault (Outcome V V E)) (run' : Except Fault (Outcome W W F)) : Prop :=
  ∃ outcome outcome', run = .ok outcome ∧ run' = .ok outcome' ∧ SameVerdict R errors errors' v w outcome outcome'

/-- cutting one view here and the other there leaves related rests and related values -/
def CutsAlike {κ κ' ω ω' : Type} [Position ω] [Position ω'] [View V κ ω] [View W κ' ω'] (R : V → W → Prop)
    (v : V) (w : W) (k k' : Nat) : Prop :=
  R (View.drop v k) (View.drop w k') ∧ R (View.take v k) (View.take w k')

section

variable {κ κ' α α' ω ω' : Type} [Position ω] [Position ω'] [View V κ ω] [View W κ' ω'] [Alphabet κ α] [Alphabet κ' α']
  [DecidableEq κ] [DecidableEq κ'] [DecidableEq α] [DecidableEq α'] {R : V → W → Prop} {errors : ErrorStrategy V E}
  {errors' : ErrorStrategy W F} {primitive : Primitive V α} {primitive' : Primitive W α'} {v : V} {w : W}
  {Q : Nat → Nat → Prop}

theorem sameVerdict_of_answers (hkind : primitive.kind? = primitive'.kind?)
    (hmatched : Option.Rel Q (primitive.matched? v) (primitive'.matched? w))
    (hcuts : ∀ k k', Q k k' → CutsAlike R v w k k')
    {outcome : Outcome V V E} {outcome' : Outcome W W F} (h : Answers errors v primitive outcome)
    (h' : Answers errors' w primitive' outcome') : SameVerdict R errors errors' v w outcome outcome' := by
  cases h with
  | cut k hk =>
    cases h' with
    | cut k' hk' =>
      rw [hk, hk'] at hmatched
      cases hmatched with
      | some hoffsets => exact hcuts k k' hoffsets
    | error kind hnone _ =>
      rw [hk, hnone] at hmatched
      exact nomatch hmatched
  | error kind hnone hk =>
    cases h' with
    | cut k' hk' =>
      rw [hnone, hk'] at hmatched
      exact nomatch hmatched
    | error kind' _ hk' =>
      obtain rfl : kind = kind' := Option.some.inj (hk.symm.trans (hkind.trans hk'))
      exact ⟨kind, rfl, rfl⟩

/-- **Runs agree when both primitives match and cut alike, or neither matches.** -/
theorem build_agree {parser : Parser V V E} {parser' : Parser W W F} (h : primitive.build errors = .ok parser)
    (h' : primitive'.build errors' = .ok parser') (hkind : primitive.kind? = primitive'.kind?)
    (hmatched : Option.Rel Q (primitive.matched? v) (primitive'.matched? w))
    (hcuts : ∀ k k', Q k k' → CutsAlike R v w k k') : Agree R errors errors' v w (parser v) (parser' w) := by
  obtain ⟨outcome, hrun, hanswers⟩ := build_answers h v
  obtain ⟨outcome', hrun', hanswers'⟩ := build_answers h' w
  exact ⟨outcome, outcome', hrun, hrun', sameVerdict_of_answers hkind hmatched hcuts hanswers hanswers'⟩

end

end Primitive

end SliceParser
