/-
PARSERS: functions from an input to an outcome, in a monad that may stop with a fault.

`Parser` is the plain kind, whose only effect is the fault; `Parser.lift` takes it to every monad that has faults.
-/
import SliceParser.ErrorStrategy.Basic

namespace SliceParser

abbrev ParserT (m : Type → Type) (V O E : Type) := V → m (Outcome V O E)

abbrev Parser (V O E : Type) := ParserT (Except Fault) V O E

namespace Parser

def lift {m : Type → Type} [Monad m] [MonadExceptOf Fault m] {V O E : Type} (parser : Parser V O E) :
    ParserT m V O E :=
  fun input => liftExcept (parser input)

variable {V κ ω E : Type} [Position ω] [View V κ ω]

/-- the success that consumes `input` up to an offset -/
def cut (input : V) (offset : Nat) : Except Fault (Outcome V V E) := do
  let (rest, matched) ← View.takeSplit input (.ofNat offset)
  return .success rest matched

theorem cut_eq (input : V) (offset : Nat) (h : offset ≤ View.length input) :
    (cut input offset : Except Fault (Outcome V V E)) =
      .ok (.success (View.drop input offset) (View.take input offset)) := by
  simp [cut, View.takeSplit_ofNat input offset h, bind, Except.bind, pure, Except.pure]

/-- a parser that cuts where a condition holds, and fails where it does not -/
theorem cut_if_success_iff {c : Prop} [Decidable c] {offset : Nat} {input rest value : V} {e : E}
    (hle : c → offset ≤ View.length input) :
    (if c then cut input offset else .ok (.error e)) = .ok (.success rest value) ↔
      c ∧ rest = View.drop input offset ∧ value = View.take input offset := by
  by_cases h : c
  · rw [if_pos h, cut_eq input offset (hle h)]
    simp [h, eq_comm]
  · rw [if_neg h]
    simp [h, Outcome.error]

/-- a parser that fails where a condition holds, and cuts where it does not -/
theorem cut_unless_success_iff {c : Prop} [Decidable c] {offset : Nat} {input rest value : V} {e : E}
    (hle : offset ≤ View.length input) :
    (if c then .ok (.error e) else cut input offset) = .ok (.success rest value) ↔
      ¬ c ∧ rest = View.drop input offset ∧ value = View.take input offset := by
  rw [← ite_not]
  exact cut_if_success_iff fun _ => hle

/-- splits at the first element that satisfies `p`; an empty match is an error -/
def splitAtPosition1 {α : Type} [Alphabet κ α] (input : V) (p : α → Bool) (kind : ErrorKind)
    (errors : ErrorStrategy V E) : Except Fault (Outcome V V E) :=
  let offset := (View.position input p).getD (View.length input)
  if offset = 0 then .ok (.error (errors.fromKind input kind))
  else cut input offset

end Parser

end SliceParser
