/-
WHOLE ELEMENTS: what a primitive matches in a text, and what it leaves, have the elements of the text.

- `Text.Spares`: an offset of a text that does not lie inside a surrogate pair. Cutting there leaves the elements as
  they are (`elements_of_spares`), and every boundary between two elements is such an offset (`spares_of_isBoundary`).
- `hasWholeEdge`: a literal that does not end in a high surrogate, or a needle that does not begin with a low one. With
  such an edge nothing is torn: what matches a literal ends as the literal does, also with case aside
  (`endsHigh_of_compareFolded`).
- `primitives_tear_no_element`: **no primitive tears an element**, whatever the text and its window, and whether or not
  the text is well formed. A surrogate that stands alone stays alone.
-/
import SliceParser.Proofs.Primitive.Answer
import SliceParser.Proofs.Unicode.LowerCase
import SliceParser.Proofs.View.Rereading

namespace SliceParser

/-! ## Cuts of a text -/

namespace Text

/-- no pair lies across the offset -/
def Spares (v : Text) (k : Nat) : Prop :=
  ¬ Units.Torn ((View.content v).take k) ((View.content v).drop k)

theorem elements_of_spares {v : Text} {k : Nat} (hk : k ≤ View.length v) (h : v.Spares k) :
    View.elements (View.take v k) ++ (View.elements (View.drop v k)).map (Prod.map (· + k) id) = View.elements v := by
  apply View.elements_take_append_drop hk
  have hsegment := segment_append h
  rw [List.take_append_drop] at hsegment
  rw [View.members, View.members, View.content_take, View.content_drop]
  exact hsegment.symm

/-- between two elements no pair is torn, as both sides show the elements they showed together -/
theorem spares_of_isBoundary {v : Text} {k : Nat} (h : View.IsBoundary v k) : v.Spares k := by
  obtain ⟨es, ⟨fs, hsplit⟩, rfl⟩ := h
  have hfront := View.members_take_extent hsplit.symm
  have hback := View.members_drop_extent hsplit.symm
  rw [View.members, View.content_take] at hfront
  rw [View.members, View.content_drop] at hback
  rw [Spares, ← segment_append_iff, List.take_append_drop]
  calc segment (View.content v) = es ++ fs := hsplit.symm
    _ = segment ((View.content v).take (extent Element.units es)) ++
        segment ((View.content v).drop (extent Element.units es)) := (congrArg₂ (· ++ ·) hfront hback).symm

theorem spares_zero (v : Text) : v.Spares 0 :=
  Units.not_torn_nil _

theorem spares_of_take {v : Text} {k : Nat} (h : Units.endsHigh ((View.content v).take k) = false) : v.Spares k := by
  rintro ⟨hhigh, -⟩
  rw [h] at hhigh
  exact absurd hhigh Bool.false_ne_true

theorem spares_of_drop {v : Text} {k : Nat} (h : Units.beginsLow ((View.content v).drop k) = false) : v.Spares k := by
  rintro ⟨-, hlow⟩
  rw [h] at hlow
  exact absurd hlow Bool.false_ne_true

end Text

/-! ## Literals and needles -/

/-- what matches a literal with case aside ends in a high surrogate just when the literal does -/
theorem endsHigh_of_compareFolded {us : Units} {es : List Element} (h : View.compareFolded us es = .ok) :
    Units.endsHigh (us.take (extent Element.units es)) = Units.endsHigh (es.flatMap Element.units) := by
  rcases List.eq_nil_or_concat es with rfl | ⟨front, e, rfl⟩
  · rfl
  · rw [List.concat_eq_append] at h ⊢
    obtain ⟨-, hlast⟩ := View.compareFolded_append_ok.1 h
    obtain ⟨hlength, hfold, -⟩ := View.compareFolded_cons_ok.1 hlast
    -- the units that stand against the last element of the literal
    let last := (us.drop (extent Element.units front)).take e.units.length
    have hfold : LowerCase.lower last = LowerCase.lower e.units := hfold
    have hlength : e.units.length ≤ (us.drop (extent Element.units front)).length := hlength
    have hne : last ≠ [] := by
      rw [← List.length_pos_iff, List.length_take, Nat.min_eq_left hlength, List.length_pos_iff]
      exact e.units_ne_nil
    calc Units.endsHigh (us.take (extent Element.units (front ++ [e])))
        = Units.endsHigh (us.take (extent Element.units front) ++ last) := by
          rw [extent_append, extent_cons, extent_nil, Nat.add_zero, List.take_add]
      _ = Units.endsHigh last := Units.endsHigh_append hne
      _ = Units.endsHigh (LowerCase.lower last) := (LowerCase.endsHigh_lower last).symm
      _ = Units.endsHigh (LowerCase.lower e.units) := by rw [hfold]
      _ = Units.endsHigh e.units := LowerCase.endsHigh_lower e.units
      _ = Units.endsHigh ((front ++ [e]).flatMap Element.units) := by
          rw [List.flatMap_append, List.flatMap_singleton, Units.endsHigh_append e.units_ne_nil]

namespace Primitive

/-- the literal does not end in a high surrogate, and the needle does not begin with a low one -/
def hasWholeEdge : Primitive Text Element → Bool
  | .tag literal => !Units.endsHigh (View.content literal)
  | .tagNoCase literal => !Units.endsHigh (View.content literal)
  | .takeUntil needle => !Units.beginsLow (View.content needle)
  | _ => true

theorem spares_of_matched? {primitive : Primitive Text Element} (hedge : primitive.hasWholeEdge = true) {input : Text}
    {k : Nat} (h : primitive.matched? input = some k) : input.Spares k := by
  cases primitive with
  | tag literal =>
    simp only [hasWholeEdge, Bool.not_eq_true'] at hedge
    simp only [matched?] at h
    split_ifs at h with hok
    obtain rfl := Option.some.inj h
    apply Text.spares_of_take
    have hprefix := List.prefix_iff_eq_take.1 (View.compareUnits_eq_ok.1 hok)
    rw [View.length_content] at hprefix
    rwa [← hprefix]
  | tagNoCase literal =>
    simp only [hasWholeEdge, Bool.not_eq_true'] at hedge
    simp only [matched?] at h
    split_ifs at h with hok
    obtain rfl := Option.some.inj h
    apply Text.spares_of_take
    have hfolded : View.compareFolded (View.content input) (segment (View.content literal)) = .ok := hok
    have hextent : extent Element.units (segment (View.content literal)) = View.length literal :=
      View.extent_members literal
    rw [← hextent, endsHigh_of_compareFolded hfolded, flatMap_units_segment, hedge]
  | takeUntil needle =>
    simp only [hasWholeEdge, Bool.not_eq_true'] at hedge
    have hfound : View.firstOccurrence (View.content needle) (View.content input) = some k := h
    by_cases hempty : View.content needle = []
    · -- an empty needle is found at once, where there is nothing in front of the cut
      rw [hempty, View.firstOccurrence_nil] at hfound
      obtain rfl := Option.some.inj hfound
      exact input.spares_zero
    · apply Text.spares_of_drop
      rw [Units.beginsLow_mono hempty (View.prefix_of_firstOccurrence hfound).2, hedge]
  | _ => exact Text.spares_of_isBoundary (matched?_isBoundary rfl h)

end Primitive

open Primitive

/-- **No primitive tears an element.** -/
theorem primitives_tear_no_element {E : Type} (errors : ErrorStrategy Text E) (primitive : Primitive Text Element)
    (parser : Parser Text Text E) (hbuild : primitive.build errors = .ok parser)
    (hedge : primitive.hasWholeEdge = true) (input rest value : Text)
    (hrun : parser input = .ok (.success rest value)) :
    View.elements value ++ (View.elements rest).map (Prod.map (· + View.length value) id) = View.elements input := by
  obtain ⟨outcome, hrun', hanswers⟩ := build_answers hbuild input
  obtain rfl := Except.ok.inj (hrun'.symm.trans hrun)
  cases hanswers with
  | cut k hk =>
    rw [View.length_take, Nat.min_eq_left (matched?_le hk)]
    exact Text.elements_of_spares (matched?_le hk) (spares_of_matched? hedge hk)

/-- a capital and a small letter beyond 16 bits, behind the half of a pair that the window cuts -/
theorem no_element_torn_at_cut_pair :
    let input : Text := ⟨⟨[0xD83D, 0xDE00, 0xD801, 0xDC00, 0x61], 1, 5, by decide, by decide⟩⟩
    let literal : Text := .ofUnits [0xDE00, 0xD801, 0xDC28]
    let parser : Parser Text Text (SimpleError Text) := Parser.tagNoCase literal .simple
    (Primitive.tagNoCase literal : Primitive Text Element).build .simple = .ok parser ∧
    (Primitive.tagNoCase literal : Primitive Text Element).hasWholeEdge = true ∧
    parser input = .ok (.success (View.drop input 3) (View.take input 3)) ∧
    View.elements (View.drop input 3) = [(0, .unit 0x61)] ∧
    View.elements input = [(0, .unit 0xDE00), (1, .pair 0xD801 0xDC00), (3, .unit 0x61)] ∧
    View.elements (View.take input 3) ++
      (View.elements (View.drop input 3)).map (Prod.map (· + View.length (View.take input 3)) id) =
        View.elements input := by
  intro input literal parser
  have hcompare : View.compareNoCase input literal = .ok := by decide +kernel
  have hrun : parser input = .ok (.success (View.drop input 3) (View.take input 3)) := by
    simp only [parser, Parser.tagNoCase, if_pos hcompare]
    exact Parser.cut_eq input 3 (by decide)
  exact ⟨rfl, rfl, hrun, rfl, rfl, primitives_tear_no_element .simple (.tagNoCase literal) parser rfl rfl _ _ _ hrun⟩

end SliceParser
