/-
THE CONTRACT of the slicing primitives, on every view of a text and on every view of octets.

- `Delivers`: an outcome a primitive may have. It is a cut of the input (`View.IsCut`), or a recoverable error of the
  one kind of the primitive, at the view it was called with. It is never a request for more input, never an
  unrecoverable error, and never an error of a primitive that has no kind.
- `build_delivers`: a primitive that can be made has such an outcome on every input, whatever the class of views.
- `KeepsContract`: there is such an outcome, and none of the parser laws is broken, however errors are compared, as
  long as they are compared reflexively.
- `primitives_keep_contract`: **every primitive keeps the contract on every text and on every octets at a safe
  position.** Not-a-number is the position at which it fails: no position equals it, not even itself.
-/
import SliceParser.Proofs.Parser.Laws
import SliceParser.Proofs.Primitive.Answer

namespace SliceParser

namespace Primitive

/-! ## One outcome -/

section

variable {V κ α ω E : Type} [Position ω] [View V κ ω]

/-- the outcomes that the contract allows -/
def Delivers (errors : ErrorStrategy V E) (primitive : Primitive V α) (input : V) : Outcome V V E → Prop
  | .success rest value => ∃ k, View.IsCut input k rest value
  | .failed err => ∃ kind, primitive.kind? = some kind ∧ err = .recoverable (errors.fromKind input kind)

theorem brokenLaws_of_delivers {errors : ErrorStrategy V E} {primitive : Primitive V α} {parser : Parser V V E}
    {input : V} {outcome : Outcome V V E} (hrun : parser input = .ok outcome)
    (h : Delivers errors primitive input outcome)
    (hsteady : Position.Steady (View.offset input)) {eqError : E → E → Bool} (heq : ∀ e, eqError e e = true) :
    brokenLaws eqError parser input = .ok [] := by
  cases outcome with
  | success rest value =>
    obtain ⟨k, hcut⟩ := h
    exact brokenLaws_of_cut hrun hcut hsteady
  | failed err =>
    obtain ⟨kind, -, rfl⟩ := h
    exact brokenLaws_of_error hrun (heq _)

end

variable {V κ α ω E : Type} [Position ω] [View V κ ω] [Alphabet κ α] [DecidableEq κ] [DecidableEq α]
  {errors : ErrorStrategy V E} {primitive : Primitive V α}

theorem delivers_of_answers {input : V} {outcome : Outcome V V E} (h : Answers errors input primitive outcome) :
    Delivers errors primitive input outcome := by
  cases h with
  | cut k hk => exact ⟨k, View.isCut input (matched?_le hk)⟩
  | error kind _ hkind => exact ⟨kind, hkind, rfl⟩

theorem build_delivers {parser : Parser V V E} (h : primitive.build errors = .ok parser) (input : V) :
    ∃ outcome, parser input = .ok outcome ∧ Delivers errors primitive input outcome := by
  obtain ⟨outcome, hrun, hanswers⟩ := build_answers h input
  exact ⟨outcome, hrun, delivers_of_answers hanswers⟩

/-! ## The contract -/

/-- there is an outcome, it is one of those allowed, and it breaks no law -/
structure KeepsContract (errors : ErrorStrategy V E) (primitive : Primitive V α) (parser : Parser V V E)
    (input : V) : Prop where
  delivers : ∃ outcome, parser input = .ok outcome ∧ Delivers errors primitive input outcome
  lawful : ∀ eqError : E → E → Bool, (∀ e, eqError e e = true) → brokenLaws eqError parser input = .ok []
  lawful_json : ∀ [JsonText E], brokenLaws ParserLaw.sameJson parser input = .ok []

theorem build_keepsContract {parser : Parser V V E} (h : primitive.build errors = .ok parser) {input : V}
    (hsteady : Position.Steady (View.offset input)) : KeepsContract errors primitive parser input := by
  obtain ⟨outcome, hrun, hdelivers⟩ := build_delivers h input
  refine ⟨⟨outcome, hrun, hdelivers⟩, ?_, ?_⟩
  · intro eqError heq
    exact brokenLaws_of_delivers hrun hdelivers hsteady heq
  · intro _
    exact brokenLaws_of_delivers hrun hdelivers hsteady fun e => by simp [ParserLaw.sameJson]

end Primitive

open Primitive

/-- **The contract holds on every text, and on every octets at a safe position.** Positions of octets are numbers: the
rest begins at the rounded sum, which is the exact one while it stays in reach. -/
theorem primitives_keep_contract {E : Type} :
    (∀ (errors : ErrorStrategy Text E) (primitive : Primitive Text Element) (parser : Parser Text Text E),
      primitive.build errors = .ok parser → ∀ input : Text, KeepsContract errors primitive parser input) ∧
    (∀ (errors : ErrorStrategy Bytes E) (primitive : Primitive Bytes UInt8) (parser : Parser Bytes Bytes E),
      primitive.build errors = .ok parser → ∀ input : Bytes, input.offset.IsSafe →
        KeepsContract errors primitive parser input ∧
        ∀ (rest value : Bytes) (o : Int), parser input = .ok (.success rest value) → input.offset = .ofInt o →
          (o + View.length value).natAbs ≤ 2 ^ 53 → rest.offset = .ofInt (o + View.length value)) := by
  constructor
  · intro errors primitive parser hbuild input
    exact build_keepsContract hbuild (Position.steady_nat _)
  · intro errors primitive parser hbuild input hsafe
    refine ⟨build_keepsContract hbuild (Position.steady_number hsafe.ne_nan), ?_⟩
    intro rest value o hrun ho hreach
    obtain ⟨outcome, hrun', hdelivers⟩ := build_delivers hbuild input
    obtain rfl := Except.ok.inj (hrun.symm.trans hrun')
    obtain ⟨k, hcut⟩ := hdelivers
    rw [hcut.length_value] at hreach ⊢
    exact Bytes.offset_rest_exact hcut ho hreach

/-- the window cuts a pair in two, and the position is not the start of a buffer -/
theorem contract_kept_at_cut_pair :
    (Primitive.take (.ofNat 1) : Primitive Text Element).build .simple = .ok (Parser.takeCount 1 .simple) ∧
    KeepsContract .simple (.take (.ofNat 1) : Primitive Text Element) (Parser.takeCount 1 .simple)
      ⟨⟨[0xD83D, 0xDE00, 0x61], 1, 3, by decide, by decide⟩⟩ ∧
    (Primitive.takeUntil (.ofOctets [3] 1 (.ofNat 0)) : Primitive Bytes UInt8).build .simple =
      .ok (Parser.takeUntil (.ofOctets [3] 1 (.ofNat 0)) .simple) ∧
    (Number.ofInt 7).IsSafe ∧
    Parser.takeUntil (.ofOctets [3] 1 (.ofNat 0)) .simple (.ofOctets [1, 2, 3] 0 (.ofInt 7) : Bytes) =
      .ok (.success (View.drop (.ofOctets [1, 2, 3] 0 (.ofInt 7)) 2) (View.take (.ofOctets [1, 2, 3] 0 (.ofInt 7)) 2)) ∧
    KeepsContract .simple (.takeUntil (.ofOctets [3] 1 (.ofNat 0)) : Primitive Bytes UInt8)
      (Parser.takeUntil (.ofOctets [3] 1 (.ofNat 0)) .simple) (.ofOctets [1, 2, 3] 0 (.ofInt 7)) ∧
    (View.drop (.ofOctets [1, 2, 3] 0 (.ofInt 7)) 2 : Bytes).offset = .ofInt 9 := by
  have hbuild : (Primitive.takeUntil (.ofOctets [3] 1 (.ofNat 0)) : Primitive Bytes UInt8).build .simple =
      .ok (Parser.takeUntil (.ofOctets [3] 1 (.ofNat 0)) .simple) := rfl
  have hsafe : (Number.ofInt 7).IsSafe := ⟨7, rfl, by decide⟩
  have hkeep := primitives_keep_contract.2 _ _ _ hbuild (.ofOctets [1, 2, 3] 0 (.ofInt 7)) hsafe
  exact ⟨rfl, primitives_keep_contract.1 _ _ _ rfl _, hbuild, hsafe, rfl, hkeep.1, hkeep.2 _ _ 7 rfl rfl (by decide)⟩

end SliceParser
