/-
ENCODING COMMUTES with literals and needles: a text and its octets in UTF-8 are matched and searched alike.

- `Encodes`: a byte view holds the UTF-8 of a text view in which no surrogate stands alone. `encodes_whole`: so it is
  for a well-formed string and its octets.
- `SameBoundary`: two offsets that lie behind the same elements, one in units and one in octets. Cutting at such
  offsets leaves views that encode each other again (`cutsAlike_of_sameBoundary`).
- `tag_matched?`, `takeUntil_matched?`: literals match up to the same elements, or neither does, and so do needles. Both
  rest on codes that can be told apart: the units of elements (`selfSynchronizing_units`) and their octets
  (`Utf8.selfSynchronizing_encodeElement`).
- `encoding_commutes`: **the runs on a text and on its octets agree, and the results are again a text and its
  octets.**
-/
import SliceParser.Proofs.Primitive.Paired
import SliceParser.Proofs.Unicode.Utf8
import SliceParser.View.Text
import SliceParser.View.Bytes

namespace SliceParser

/-! ## A text and its octets -/

/-- the octets of a well-formed text -/
structure Encodes (v : Text) (w : Bytes) : Prop where
  wellFormed : Units.WellFormed (View.content v)
  content_eq : View.content w = Utf8.encode (View.content v)

theorem encodes_whole {s : Units} (h : s.WellFormed) (buffer : Nat) (offset : Number) :
    Encodes (.ofUnits s) (.ofOctets (Utf8.encode s) buffer offset) := by
  have htext : View.content (Text.ofUnits s) = s := Span.content_whole s
  have hbytes : View.content (Bytes.ofOctets (Utf8.encode s) buffer offset) = Utf8.encode s := Span.content_whole _
  constructor
  · rwa [htext]
  · rw [htext, hbytes]

/-- elements that are read as they are written, in units and in octets -/
theorem encodes_of_elements {v : Text} {w : Bytes} {es : List Element} (hread : segment (es.flatMap Element.units) = es)
    (hwhole : ∀ e ∈ es, e.isLone = false) (hv : View.content v = es.flatMap Element.units)
    (hw : View.content w = es.flatMap Utf8.encodeElement) : Encodes v w := by
  constructor
  · rw [hv, Units.WellFormed, hread]
    exact hwhole
  · rw [hv, hw, Utf8.encode, hread]

/-- behind the same elements of a text, in its units and in its octets -/
def SameBoundary (v : Text) (k k' : Nat) : Prop :=
  ∃ front, front <+: segment (View.content v) ∧ k = extent Element.units front ∧
    k' = extent Utf8.encodeElement front

namespace Encodes

variable {v literal needle : Text} {w literal' needle' : Bytes}

theorem content_bytes (h : Encodes v w) :
    View.content w = (segment (View.content v)).flatMap Utf8.encodeElement :=
  h.content_eq

theorem whole (h : Encodes v w) : ∀ e ∈ segment (View.content v), e.Whole :=
  fun _ he => h.wellFormed.whole_of_mem_segment he

/-- **Cutting between two elements leaves a text and its octets on either side.** -/
theorem cutsAlike_of_sameBoundary (h : Encodes v w) {k k' : Nat} (hk : SameBoundary v k k') :
    Primitive.CutsAlike Encodes v w k k' := by
  obtain ⟨front, ⟨back, hsplit⟩, rfl, rfl⟩ := hk
  obtain ⟨hfront, hback⟩ := segment_of_append hsplit.symm
  have hv : View.content v = (front ++ back).flatMap Element.units := by
    rw [hsplit, flatMap_units_segment]
  have hw : View.content w = (front ++ back).flatMap Utf8.encodeElement := by
    rw [hsplit, ← h.content_bytes]
  have hlone : ∀ e ∈ front ++ back, e.isLone = false := by
    rw [hsplit]
    exact h.wellFormed
  constructor
  · apply encodes_of_elements hback fun e he => hlone e (List.mem_append_right _ he)
    · rw [View.content_drop, hv, drop_extent]
    · rw [View.content_drop, hw, drop_extent]
  · apply encodes_of_elements hfront fun e he => hlone e (List.mem_append_left _ he)
    · rw [View.content_take, hv, take_extent]
    · rw [View.content_take, hw, take_extent]

/-! ## Literals -/

/-- a text begins with a literal exactly when its elements begin with those of the literal -/
theorem compare_text (h : Encodes v w) (hliteral : Encodes literal literal') :
    View.compare v literal = .ok ↔ segment (View.content literal) <+: segment (View.content v) := by
  have hprefix := selfSynchronizing_units.prefix_flatMap_iff hliteral.whole h.whole
  rw [flatMap_units_segment, flatMap_units_segment] at hprefix
  exact View.compareUnits_eq_ok.trans hprefix

/-- and so do its octets -/
theorem compare_bytes (h : Encodes v w) (hliteral : Encodes literal literal') :
    View.compare w literal' = .ok ↔ segment (View.content literal) <+: segment (View.content v) := by
  have hprefix := Utf8.selfSynchronizing_encodeElement.prefix_flatMap_iff hliteral.whole h.whole
  rw [← h.content_bytes, ← hliteral.content_bytes] at hprefix
  exact View.compareUnits_eq_ok.trans hprefix

/-- **A literal matches a text exactly when its octets match those of the text**, and up to the same elements. -/
theorem tag_matched? (h : Encodes v w) (hliteral : Encodes literal literal') :
    Option.Rel (SameBoundary v) ((Primitive.tag literal : Primitive Text Element).matched? v)
      ((Primitive.tag literal' : Primitive Bytes UInt8).matched? w) := by
  rw [Primitive.matched?, Primitive.matched?]
  by_cases hpre : segment (View.content literal) <+: segment (View.content v)
  · rw [if_pos ((h.compare_text hliteral).2 hpre), if_pos ((h.compare_bytes hliteral).2 hpre)]
    refine .some ⟨_, hpre, (View.extent_members literal).symm, ?_⟩
    rw [← View.length_content, hliteral.content_bytes, extent]
  · rw [if_neg fun hok => hpre ((h.compare_text hliteral).1 hok),
      if_neg fun hok => hpre ((h.compare_bytes hliteral).1 hok)]
    exact .none

/-! ## Needles -/

/-- **A needle is found in a text exactly when its octets are found in those of the text**, and behind the same
elements. -/
theorem takeUntil_matched? (h : Encodes v w) (hneedle : Encodes needle needle') :
    Option.Rel (SameBoundary v) ((Primitive.takeUntil needle : Primitive Text Element).matched? v)
      ((Primitive.takeUntil needle' : Primitive Bytes UInt8).matched? w) := by
  have htext := selfSynchronizing_units.firstOccurrence_flatMap hneedle.whole h.whole
  rw [flatMap_units_segment, flatMap_units_segment] at htext
  have hbytes := Utf8.selfSynchronizing_encodeElement.firstOccurrence_flatMap hneedle.whole h.whole
  rw [← h.content_bytes, ← hneedle.content_bytes] at hbytes
  rw [Primitive.matched?, Primitive.matched?, View.findSubstring, View.findSubstring, htext, hbytes]
  -- both searches come down to the one among the elements
  cases View.firstOccurrence (segment (View.content needle)) (segment (View.content v)) with
  | none => exact .none
  | some n => exact .some ⟨_, List.take_prefix n _, rfl, rfl⟩

end Encodes

open Primitive

/-! ## Runs -/

/-- **Encoding commutes with matching a literal and with searching for a needle.** The runs on a string and on its
octets both succeed or both fail, whatever the strategies and the buffers, and what they leave and what they match are
a text and its octets again. -/
theorem encoding_commutes {E F : Type} (errors : ErrorStrategy Text E) (errors' : ErrorStrategy Bytes F) {s t : Units}
    (hs : s.WellFormed) (ht : t.WellFormed) (buffer buffer' : Nat) (offset offset' : Number) :
    let text : Text := .ofUnits s
    let octets : Bytes := .ofOctets (Utf8.encode s) buffer offset
    let literal : Text := .ofUnits t
    let literal' : Bytes := .ofOctets (Utf8.encode t) buffer' offset'
    Agree Encodes errors errors' text octets (Parser.tag literal errors text) (Parser.tag literal' errors' octets) ∧
    Agree Encodes errors errors' text octets (Parser.takeUntil literal errors text)
      (Parser.takeUntil literal' errors' octets) := by
  intro text octets literal literal'
  have hinput : Encodes text octets := encodes_whole hs buffer offset
  have hliteral : Encodes literal literal' := encodes_whole ht buffer' offset'
  have hcuts : ∀ k k', SameBoundary text k k' → CutsAlike Encodes text octets k k' :=
    fun _ _ => hinput.cutsAlike_of_sameBoundary
  have htag : (Primitive.tag literal : Primitive Text Element).build errors = .ok (Parser.tag literal errors) := rfl
  have htag' : (Primitive.tag literal' : Primitive Bytes UInt8).build errors' = .ok (Parser.tag literal' errors') := rfl
  have huntil : (Primitive.takeUntil literal : Primitive Text Element).build errors =
      .ok (Parser.takeUntil literal errors) := rfl
  have huntil' : (Primitive.takeUntil literal' : Primitive Bytes UInt8).build errors' =
      .ok (Parser.takeUntil literal' errors') := rfl
  constructor
  · exact build_agree htag htag' rfl (hinput.tag_matched? hliteral) hcuts
  · exact build_agree huntil huntil' rfl (hinput.takeUntil_matched? hliteral) hcuts

/-- characters of one octet, of two, of three and of four, the last of them a needle that is no literal of the text -/
theorem encoding_commutes_up_to_four_octets :
    let s : Units := [0x61, 0xE9, 0x20AC, 0xD83D, 0xDE00]
    let t : Units := [0xD83D, 0xDE00]
    let text : Text := .ofUnits s
    let octets : Bytes := .ofOctets (Utf8.encode s) 0 (.ofNat 0)
    let needle : Text := .ofUnits t
    let needle' : Bytes := .ofOctets (Utf8.encode t) 1 (.ofNat 0)
    s.WellFormed ∧ t.WellFormed ∧
    Utf8.encode s = [0x61, 0xC3, 0xA9, 0xE2, 0x82, 0xAC, 0xF0, 0x9F, 0x98, 0x80] ∧
    Parser.takeUntil needle .simple text = .ok (.success (View.drop text 3) (View.take text 3)) ∧
    Parser.takeUntil needle' .unit octets = .ok (.success (View.drop octets 6) (View.take octets 6)) ∧
    Encodes (View.drop text 3) (View.drop octets 6) ∧ Encodes (View.take text 3) (View.take octets 6) ∧
    Parser.tag needle .simple text = .ok (.error ⟨text, .tag⟩) ∧ Parser.tag needle' .unit octets = .ok (.error ()) := by
  intro s t text octets needle needle'
  have hs : s.WellFormed := by decide
  have ht : t.WellFormed := by decide
  have hencode : Utf8.encode s = [0x61, 0xC3, 0xA9, 0xE2, 0x82, 0xAC, 0xF0, 0x9F, 0x98, 0x80] := by decide
  have htext : Parser.takeUntil needle .simple text = .ok (.success (View.drop text 3) (View.take text 3)) := rfl
  have hoctets : Parser.takeUntil needle' .unit octets = .ok (.success (View.drop octets 6) (View.take octets 6)) := rfl
  obtain ⟨-, outcome, outcome', hrun, hrun', hverdict⟩ :=
    encoding_commutes .simple .unit hs ht 0 1 (.ofNat 0) (.ofNat 0)
  obtain rfl := Except.ok.inj (hrun.symm.trans htext)
  obtain rfl := Except.ok.inj (hrun'.symm.trans hoctets)
  exact ⟨hs, ht, hencode, htext, hoctets, hverdict.1, hverdict.2, rfl, rfl⟩

end SliceParser
