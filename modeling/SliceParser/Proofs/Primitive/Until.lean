/-
STOPPING AT A NEEDLE: where `takeUntil` stops, and what `tag` says of that place and of those in front of it.

- `compare_drop_iff`: what lies behind an offset begins with a literal exactly when the literal occurs there, so that a
  search and a comparison that are written apart agree.
- `StopsAtFirst`: the search finds the least place at which the needle lies wholly inside the input. `takeUntil` succeeds
  exactly when there is one, and leaves the needle at the start of the rest. At no place before, and if it fails at no
  place at all, `tag` succeeds.
- `takeUntil_stops_at_first_occurrence`: **that holds of every needle and every input**, on every kind of view. A needle
  may overlap itself, be empty or be longer than the input, and what follows the window of the input is not part of it.
-/
import SliceParser.Proofs.Primitive.Answer
import SliceParser.Proofs.View.Cut
import SliceParser.View.Text

namespace SliceParser

namespace Primitive

variable {V κ ω E F : Type} [Position ω] [View V κ ω] [DecidableEq κ]

/-! ## Literals at an offset -/

theorem compare_drop_iff {input literal : V} {k : Nat} (hk : k ≤ View.length input) :
    View.compare (View.drop input k) literal = .ok ↔ View.OccursAt input literal k := by
  rw [View.compare, View.compareUnits_eq_ok, View.content_drop]
  exact (and_iff_right hk).symm

theorem tag_drop_of_occursAt (errors : ErrorStrategy V E) {input literal : V} {k : Nat}
    (h : View.OccursAt input literal k) : ∃ rest value,
      Parser.tag literal errors (View.drop input k) = .ok (.success rest value) := by
  have hcompare := (compare_drop_iff h.1).2 h
  rw [Parser.tag, if_pos hcompare]
  exact ⟨_, _, Parser.cut_eq _ _ (View.length_le_of_compare hcompare)⟩

/-- the input can be cut at `j`, and what lies behind the cut does not begin with the literal -/
def TagFailsAt (errors : ErrorStrategy V E) (literal input : V) (j : Nat) : Prop :=
  ∃ behind front, View.takeSplit input (.ofNat j) = .ok (behind, front) ∧
    Parser.tag literal errors behind = .ok (.error (errors.fromKind behind .tag))

theorem tagFailsAt_of_not_occursAt (errors : ErrorStrategy V E) {input literal : V} {j : Nat}
    (hj : j ≤ View.length input) (h : ¬ View.OccursAt input literal j) : TagFailsAt errors literal input j := by
  refine ⟨_, _, View.takeSplit_ofNat input j hj, ?_⟩
  rw [Parser.tag, if_neg (mt (compare_drop_iff hj).1 h)]

/-! ## The search -/

/-- what a search and the two parsers have to do with the first occurrence of a needle -/
structure StopsAtFirst (errors : ErrorStrategy V E) (errors' : ErrorStrategy V F) (needle input : V) : Prop where
  found_iff : ∀ k, View.findSubstring input needle = some k ↔
    View.OccursAt input needle k ∧ ∀ j < k, ¬ View.OccursAt input needle j
  missed_iff : View.findSubstring input needle = none ↔ ∀ k, ¬ View.OccursAt input needle k
  succeeds_iff : (∃ rest value, Parser.takeUntil needle errors input = .ok (.success rest value)) ↔
    ∃ k, View.OccursAt input needle k
  /-- the rest begins with the needle, and nothing in front of it does -/
  success : ∀ rest value, Parser.takeUntil needle errors input = .ok (.success rest value) →
    ∃ k, View.findSubstring input needle = some k ∧ View.IsCut input k rest value ∧
      (∃ rest' value', Parser.tag needle errors' rest = .ok (.success rest' value')) ∧
      ∀ j < k, TagFailsAt errors' needle input j
  /-- nothing begins with the needle -/
  failure : ∀ err, Parser.takeUntil needle errors input = .ok (.failed err) →
    ∀ j ≤ View.length input, TagFailsAt errors' needle input j

theorem takeUntil_eq_of_some (errors : ErrorStrategy V E) {needle input : V} {k : Nat}
    (h : View.findSubstring input needle = some k) :
    Parser.takeUntil needle errors input = .ok (.success (View.drop input k) (View.take input k)) := by
  simp only [Parser.takeUntil, h]
  exact Parser.cut_eq input k (View.findSubstring_le h)

theorem takeUntil_eq_of_none (errors : ErrorStrategy V E) {needle input : V}
    (h : View.findSubstring input needle = none) :
    Parser.takeUntil needle errors input = .ok (.error (errors.fromKind input .takeUntil)) := by
  simp only [Parser.takeUntil, h]

end Primitive

open Primitive

/-- **A parser that goes up to a needle stops at its first occurrence.** -/
theorem takeUntil_stops_at_first_occurrence {V κ ω E F : Type} [Position ω] [View V κ ω] [DecidableEq κ]
    (errors : ErrorStrategy V E) (errors' : ErrorStrategy V F) (needle input : V) :
    StopsAtFirst errors errors' needle input := by
  cases hfind : View.findSubstring input needle with
  | some k =>
    obtain ⟨hoccurs, hleast⟩ := View.findSubstring_eq_some_iff.1 hfind
    have hrun := takeUntil_eq_of_some errors hfind
    refine ⟨fun _ => View.findSubstring_eq_some_iff, View.findSubstring_eq_none_iff, ?_, ?_, ?_⟩
    · exact iff_of_true ⟨_, _, hrun⟩ ⟨k, hoccurs⟩
    · intro rest value hrun'
      cases hrun.symm.trans hrun'
      refine ⟨k, hfind, View.isCut input hoccurs.1, tag_drop_of_occursAt errors' hoccurs, ?_⟩
      intro j hj
      exact tagFailsAt_of_not_occursAt errors' (hj.le.trans hoccurs.1) (hleast j hj)
    · intro err hrun'
      exact nomatch hrun.symm.trans hrun'
  | none =>
    have hmissing := View.findSubstring_eq_none_iff.1 hfind
    have hrun := takeUntil_eq_of_none errors hfind
    refine ⟨fun _ => View.findSubstring_eq_some_iff, View.findSubstring_eq_none_iff, ?_, ?_, ?_⟩
    · refine iff_of_false ?_ ?_
      · intro ⟨rest, value, hrun'⟩
        exact nomatch hrun.symm.trans hrun'
      · intro ⟨k, hoccurs⟩
        exact hmissing k hoccurs
    · intro rest value hrun'
      exact nomatch hrun.symm.trans hrun'
    · intro err _ j hj
      exact tagFailsAt_of_not_occursAt errors' hj (hmissing j)

/-- a needle that overlaps its own start, in a text and in a window that ends one unit short of it -/
example :
    View.findSubstring (.ofUnits [0x61, 0x61, 0x61, 0x62] : Text) (.ofUnits [0x61, 0x61, 0x62]) = some 1 ∧
    View.findSubstring (⟨⟨[0x61, 0x61, 0x61, 0x62], 0, 3, by decide, by decide⟩⟩ : Text) (.ofUnits [0x61, 0x61, 0x62]) =
      none := by
  decide

end SliceParser
