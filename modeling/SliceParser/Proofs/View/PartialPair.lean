/-
INPUT THAT ENDS INSIDE A PAIR: when a text that is compared with case aside asks for more input, and when it should.

- `Completable`: the input is shorter than the literal, and something that may follow makes it match.
- `EndsAmiss`: the input ends with one unit against a pair of the literal, matches all in front of that pair, and the
  unit is not the first half of the pair. Nothing that follows makes it match (`not_completable_of_endsAmiss`), but the
  unit is not looked at, and the verdict is that more input is needed (`incomplete_of_endsAmiss`).
- `more_is_asked_for_rightly_iff`: **everywhere else more input is asked for just where some would complete a match.** A
  match and a mismatch are final everywhere.
-/
import SliceParser.Proofs.View.CaseAside

namespace SliceParser

namespace Text

/-- something that may follow the input makes it match the literal, and without it the input is too short -/
def Completable (input literal : Text) : Prop :=
  View.length input < View.length literal ∧
    ∃ more : Units, View.compareNoCase (Text.ofUnits (View.text input ++ more)) literal = .ok

/-- the last unit of the input stands against a pair of the literal, and is not the first half of it -/
def EndsAmiss (input literal : Text) : Prop :=
  ∃ front high low back matched u, View.members literal = front ++ Element.pair high low :: back ∧
    View.content input = matched ++ [u] ∧ matched.length = extent Element.units front ∧
    View.compareFolded (View.content input) front = .ok ∧ u ≠ high

variable {input literal : Text}

theorem compareNoCase_ofUnits (input literal : Text) (more : Units) :
    View.compareNoCase (Text.ofUnits (View.text input ++ more)) literal =
      View.compareFolded (View.content input ++ more) (View.members literal) := by
  have hcontent : View.content (Text.ofUnits (View.text input ++ more)) = View.text input ++ more :=
    Span.content_whole _
  rw [View.compareNoCase, hcontent]
  rfl

/-- a match and a mismatch are final -/
theorem compareNoCase_final (h : View.compareNoCase input literal ≠ .incomplete) (more : Units) :
    View.compareNoCase (Text.ofUnits (View.text input ++ more)) literal = View.compareNoCase input literal := by
  rw [compareNoCase_ofUnits]
  exact View.compareFolded_append h more

theorem incomplete_of_completable (h : Completable input literal) : View.compareNoCase input literal = .incomplete := by
  obtain ⟨hshorter, more, hok⟩ := h
  by_contra hfinal
  rw [compareNoCase_final hfinal] at hok
  exact absurd (View.length_le_of_compareNoCase hok) (Nat.not_le.2 hshorter)

/-! ## What completes a match -/

/-- what is missing of the literal completes a match, if the input ends as the literal does there -/
theorem completable_of_append {front back : List Element} {e : Element} (more : Units)
    (hliteral : View.members literal = front ++ e :: back)
    (hfront : View.compareFolded (View.content input) front = .ok)
    (hends : View.length input < extent Element.units (front ++ [e]))
    (hmore : (View.content input).drop (extent Element.units front) ++ more = (e :: back).flatMap Element.units) :
    Completable input literal := by
  have hlength : extent Element.units (View.members literal) = View.length literal := View.extent_members literal
  refine ⟨?_, more, ?_⟩
  · rw [hliteral, List.append_cons, extent_append] at hlength
    omega
  · have hle : extent Element.units front ≤ (View.content input).length := View.extent_le_of_compareFolded hfront
    have hback : View.compareFolded ((e :: back).flatMap Element.units ++ []) (e :: back) = .ok :=
      View.compareFolded_of_foldsAlike (List.forall₂_same.2 fun _ _ => .refl _) []
    rw [List.append_nil] at hback
    have hstill : View.compareFolded (View.content input ++ more) front = .ok := by
      rw [View.compareFolded_append (by rw [hfront]; decide), hfront]
    rw [compareNoCase_ofUnits, hliteral, View.compareFolded_append_ok]
    refine ⟨hstill, ?_⟩
    change View.compareFolded ((View.content input ++ more).drop (extent Element.units front)) (e :: back) = .ok
    rw [List.drop_append_of_le_length hle, hmore, hback]

/-- the input ends in front of an element, or with one unit against a pair -/
theorem completable_or_endsAmiss (h : View.compareNoCase input literal = .incomplete) :
    Completable input literal ∨ EndsAmiss input literal := by
  obtain ⟨front, e, back, hliteral, hfront, hends⟩ := View.compareFolded_eq_incomplete.1 h
  have hliteral : View.members literal = front ++ e :: back := hliteral
  have hends : View.length input < extent Element.units (front ++ [e]) := by
    rw [← View.length_content]
    exact hends
  have hle : extent Element.units front ≤ (View.content input).length := View.extent_le_of_compareFolded hfront
  cases htail : (View.content input).drop (extent Element.units front) with
  | nil =>
    left
    refine completable_of_append ((e :: back).flatMap Element.units) hliteral hfront hends ?_
    rw [htail, List.nil_append]
  | cons u tail =>
    have hcount := congrArg List.length htail
    rw [List.length_drop, View.length_content, List.length_cons] at hcount
    rw [extent_append, extent_cons, extent_nil] at hends
    cases e with
    | unit w =>
      rw [Element.units, List.length_singleton] at hends
      omega
    | pair high low =>
      rw [Element.units, List.length_cons, List.length_singleton] at hends
      have hlast : tail = [] := List.length_eq_zero_iff.1 (by omega)
      rw [hlast] at htail
      by_cases hhigh : u = high
      · left
        refine completable_of_append (low :: back.flatMap Element.units) hliteral hfront ?_ ?_
        · rw [extent_append, extent_cons, extent_nil, Element.units, List.length_cons, List.length_singleton]
          exact hends
        · rw [htail, hhigh]
          rfl
      · right
        refine ⟨front, high, low, back, (View.content input).take (extent Element.units front), u, hliteral, ?_, ?_,
          hfront, hhigh⟩
        · rw [← htail, List.take_append_drop]
        · exact List.length_take_of_le hle

/-! ## What cannot be completed -/

theorem incomplete_of_endsAmiss (h : EndsAmiss input literal) : View.compareNoCase input literal = .incomplete := by
  obtain ⟨front, high, low, back, matched, u, hliteral, hinput, hmatched, hfront, -⟩ := h
  refine View.compareFolded_eq_incomplete.2 ⟨front, .pair high low, back, hliteral, hfront, ?_⟩
  change (View.content input).length < extent Element.units (front ++ [.pair high low])
  rw [hinput, List.length_append, hmatched, extent_append, extent_cons, extent_nil]
  exact Nat.lt_succ_self _

theorem not_completable_of_endsAmiss (h : EndsAmiss input literal) : ¬ Completable input literal := by
  intro ⟨_, more, hok⟩
  obtain ⟨front, high, low, back, matched, u, hliteral, hinput, hmatched, -, hne⟩ := h
  rw [compareNoCase_ofUnits, hliteral, View.compareFolded_append_ok] at hok
  obtain ⟨hlength, hfold, -⟩ := View.compareFolded_cons_ok.1 hok.2
  -- against the pair stand the last unit of the input and the first of what follows
  have hagainst : (View.content input ++ more).drop (extent Element.units front) = u :: more := by
    rw [hinput, List.append_assoc, ← hmatched, List.drop_left]
    rfl
  have hlength : 2 ≤ ((View.content input ++ more).drop (extent Element.units front)).length := hlength
  have hfold : LowerCase.lower (((View.content input ++ more).drop (extent Element.units front)).take 2) =
      LowerCase.lower [high, low] := hfold
  rw [hagainst] at hlength hfold
  cases more with
  | nil => exact absurd hlength (by simp)
  | cons w more =>
    have hmem : Element.pair high low ∈ segment (View.content literal) := by
      change Element.pair high low ∈ View.members literal
      rw [hliteral]
      exact List.mem_append_right _ List.mem_cons_self
    exact hne (LowerCase.eq_pair_of_lower (surrogates_of_mem_segment hmem) hfold).1

end Text

open Text

/-- **More input is asked for rightly, unless the input ends amiss inside a pair.** There it is asked for in vain. -/
theorem more_is_asked_for_rightly_iff (input literal : Text) :
    (View.compareNoCase input literal ≠ .incomplete → ∀ more : Units,
      View.compareNoCase (Text.ofUnits (View.text input ++ more)) literal = View.compareNoCase input literal) ∧
    ((View.compareNoCase input literal = .incomplete ↔ Completable input literal) ↔ ¬ EndsAmiss input literal) ∧
    (EndsAmiss input literal → View.compareNoCase input literal = .incomplete) := by
  refine ⟨compareNoCase_final, ?_, incomplete_of_endsAmiss⟩
  constructor
  · intro hiff hamiss
    exact not_completable_of_endsAmiss hamiss (hiff.1 (incomplete_of_endsAmiss hamiss))
  · intro hwell
    refine ⟨?_, incomplete_of_completable⟩
    intro hincomplete
    rcases completable_or_endsAmiss hincomplete with hcompletable | hamiss
    · exact hcompletable
    · exact absurd hamiss hwell

/-- a letter against a pair: more is asked for, and the letter rules out that any helps -/
theorem more_asked_for_in_vain :
    let input : Text := .ofString "a"
    let literal : Text := .ofUnits [0xD801, 0xDC00]
    View.compareNoCase input literal = .incomplete ∧
    (∀ more : Units, View.compareNoCase (Text.ofUnits (View.text input ++ more)) literal ≠ .ok) ∧
    ¬ (View.compareNoCase input literal = .incomplete ↔ Completable input literal) := by
  intro input literal
  have hamiss : EndsAmiss input literal := ⟨[], 0xD801, 0xDC00, [], [], 0x61, rfl, rfl, rfl, rfl, by decide⟩
  have hincomplete := incomplete_of_endsAmiss hamiss
  have hvain := not_completable_of_endsAmiss hamiss
  refine ⟨hincomplete, ?_, ?_⟩
  · intro more hok
    exact hvain ⟨by decide, more, hok⟩
  · intro hiff
    exact hvain (hiff.1 hincomplete)

end SliceParser
