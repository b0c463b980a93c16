/-
TAGS WITH CASE ASIDE: what `tagNoCase` has in common with `tag`, and how its input and its literal may change places.

- `tag_success_iff`, `tagNoCase_success_iff`: a tag succeeds where the literal matches, and cuts behind its length.
- `ExtendsTag`: whatever `tag` matches `tagNoCase` matches too, and in the same way. What it matches in some other case
  matches the literal in turn, and then nothing of the literal is left.
- `tagNoCase_extends_tag`: **so do tags on texts and on octets**, also where a literal ends in half of a pair that the
  input has whole.
-/
import SliceParser.Parser.Primitive
import SliceParser.Proofs.View.CaseAside

namespace SliceParser

namespace Primitive

variable {V κ α ω E F : Type} [Position ω] [View V κ ω]

variable [DecidableEq κ]

theorem tag_success_iff {errors : ErrorStrategy V E} {literal input rest value : V} :
    Parser.tag literal errors input = .ok (.success rest value) ↔ View.compare input literal = .ok ∧
      rest = View.drop input (View.length literal) ∧ value = View.take input (View.length literal) :=
  Parser.cut_if_success_iff View.length_le_of_compare

variable [Alphabet κ α]

theorem tagNoCase_success_iff {errors : ErrorStrategy V E} {literal input rest value : V} :
    Parser.tagNoCase literal errors input = .ok (.success rest value) ↔ View.compareNoCase input literal = .ok ∧
      rest = View.drop input (View.length literal) ∧ value = View.take input (View.length literal) :=
  Parser.cut_if_success_iff View.length_le_of_compareNoCase

/-- how a literal with case aside goes with the literal as it stands, and with itself the other way round -/
structure ExtendsTag (errors : ErrorStrategy V E) (errors' : ErrorStrategy V F) (literal input : V) : Prop where
  /-- a verdict is the same, unless it is a mismatch -/
  verdict : View.compare input literal ≠ .error → View.compareNoCase input literal = View.compare input literal
  success : ∀ rest value, Parser.tag literal errors input = .ok (.success rest value) →
    Parser.tagNoCase literal errors' input = .ok (.success rest value)
  /-- the match as a literal matches all of the literal -/
  symmetric : ∀ rest value, Parser.tagNoCase literal errors input = .ok (.success rest value) →
    ∃ rest' value', Parser.tagNoCase value errors' literal = .ok (.success rest' value') ∧
      View.length rest' = 0 ∧ View.content value' = View.content literal

theorem extendsTag [View.CaseReading κ] (errors : ErrorStrategy V E) (errors' : ErrorStrategy V F) (literal input : V) :
    ExtendsTag errors errors' literal input where
  verdict := View.compareNoCase_eq_compare
  success := by
    intro rest value hrun
    obtain ⟨hok, hrest, hvalue⟩ := tag_success_iff.1 hrun
    have hsame := View.compareNoCase_eq_compare (by rw [hok]; decide : View.compare input literal ≠ .error)
    exact tagNoCase_success_iff.2 ⟨hsame.trans hok, hrest, hvalue⟩
  symmetric := by
    intro rest value hrun
    obtain ⟨hok, -, hvalue⟩ := tagNoCase_success_iff.1 hrun
    have hlength : View.length value = View.length literal := by
      rw [hvalue, View.length_take, Nat.min_eq_left (View.length_le_of_compareNoCase hok)]
    have hback : View.compareNoCase literal value = .ok := hvalue ▸ View.compareNoCase_symm hok
    refine ⟨_, _, tagNoCase_success_iff.2 ⟨hback, rfl, rfl⟩, ?_, ?_⟩
    · rw [View.length_drop, hlength, Nat.sub_self]
    · rw [View.content_take, hlength, ← View.length_content, List.take_length]

end Primitive

open Primitive

/-- **A tag with case aside extends the tag, and works both ways.** -/
theorem tagNoCase_extends_tag {E F : Type} :
    (∀ (errors : ErrorStrategy Text E) (errors' : ErrorStrategy Text F) (literal input : Text),
      ExtendsTag errors errors' literal input) ∧
    (∀ (errors : ErrorStrategy Bytes E) (errors' : ErrorStrategy Bytes F) (literal input : Bytes),
      ExtendsTag errors errors' literal input) := by
  refine ⟨?_, ?_⟩
  · intro errors errors' literal input
    exact extendsTag errors errors' literal input
  · intro errors errors' literal input
    exact extendsTag errors errors' literal input

/-- a literal that ends in half of a pair, in an input that has the pair whole -/
example :
    View.compareNoCase (.ofUnits [0x41, 0xD83D, 0xDE00] : Text) (.ofUnits [0x61, 0xD83D]) = .ok ∧
    View.compareNoCase (.ofUnits [0x61, 0xD83D] : Text) (View.take (.ofUnits [0x41, 0xD83D, 0xDE00] : Text) 2) =
      .ok := by
  decide +kernel

end SliceParser
