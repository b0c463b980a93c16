/-
TEXT THROUGH OCTETS: what is left of a text that is written in UTF-8 and read again.

- `Units.loneAt`: whether a surrogate stands at a place in a text without its other half beside it. `Units.mended`:
  the text with a replacement character in each such place. `mended_eq`: that is what UTF-8 keeps of its elements, one
  by one (`Element.kept`).
- `decodeFrom_encode`: **the octets of any text are read as the code points of what is kept**; no part of them is
  ill-formed.
- `dropMark_encodeCode`: the octets of a code point are taken for a byte order mark exactly when it is one.
- `text_survives_octets`: **a byte view of a text shows the text mended, without one leading mark**; a well-formed text
  that begins with no mark is shown as it is.
-/
import SliceParser.Proofs.Unicode.Utf8
import SliceParser.View.Bytes

namespace SliceParser

/-! ## Lone surrogates, place by place -/

namespace Units

/-- a surrogate stands at place `i`, and beside it not the other half that would make it a pair -/
def loneAt (us : Units) (i : Nat) : Bool :=
  us[i]?.any fun u =>
    (isHighSurrogate u && !beginsLow (us.drop (i + 1))) || (isLowSurrogate u && !endsHigh (us.take i))

/-- the text with a replacement character in the place of each lone surrogate -/
def mended (us : Units) : Units :=
  us.mapIdx fun i u => if us.loneAt i then 0xFFFD else u

/-- the text without a byte order mark in front -/
def unmarked (us : Units) : Units :=
  if us.head? = some 0xFEFF then us.tail else us

theorem loneAt_append (front : Units) (u : UInt16) (us : Units) :
    loneAt (front ++ u :: us) front.length =
      ((isHighSurrogate u && !beginsLow us) || (isLowSurrogate u && !endsHigh front)) := by
  have hbehind : (front ++ u :: us).drop (front.length + 1) = us := by
    rw [List.drop_append, List.drop_eq_nil_of_le (Nat.le_succ _)]
    simp
  simp [loneAt, hbehind]

/-- a text mended where it stands behind another one -/
def mendedBehind (front us : Units) : Units :=
  us.mapIdx fun i u => if loneAt (front ++ us) (front.length + i) then 0xFFFD else u

theorem mendedBehind_nil_left (us : Units) : mendedBehind [] us = us.mended := by
  simp [mendedBehind, mended]

theorem mendedBehind_cons (front : Units) (u : UInt16) (us : Units) :
    mendedBehind front (u :: us) =
      (if (isHighSurrogate u && !beginsLow us) || (isLowSurrogate u && !endsHigh front) then 0xFFFD else u) ::
        mendedBehind (front ++ [u]) us := by
  simp only [mendedBehind, List.mapIdx_cons, Nat.add_zero, loneAt_append, List.append_assoc, List.singleton_append,
    List.length_append, List.length_singleton, Nat.add_assoc, Nat.add_comm 1]

end Units

open SliceParser.Units

/-! ## Elements -/

namespace Element

/-- what UTF-8 keeps of an element: a surrogate that stands alone becomes the replacement character -/
def kept (e : Element) : Element :=
  if e.isLone then .unit 0xFFFD else e

theorem kept_of_not_lone {e : Element} (h : e.isLone = false) : e.kept = e := by
  simp [kept, h]

theorem whole_kept {us : Units} {e : Element} (h : e ∈ segment us) : e.kept.Whole := by
  cases e with
  | unit u =>
    rw [kept]
    split_ifs with hlone
    · exact ⟨by decide, by decide⟩
    · simpa [isLone, Whole] using hlone
  | pair high low => exact surrogates_of_mem_segment h

/-- a whole element is spelled from its code -/
theorem Whole.ofCode_code {e : Element} (h : e.Whole) : ofCode e.code = e := by
  cases e with
  | unit u => rw [ofCode, if_pos (code_unit_lt u), code_unit, UInt16.ofNat_toNat]
  | pair high low =>
    have hbounds := h.pair_bounds
    have hhigh : 0xD800 + ((pair high low).code - 0x10000) / 0x400 = high.toNat := by rw [code_pair]; omega
    have hlow : 0xDC00 + ((pair high low).code - 0x10000) % 0x400 = low.toNat := by rw [code_pair]; omega
    rw [ofCode, if_neg (by rw [code_pair]; omega), hhigh, hlow, UInt16.ofNat_toNat, UInt16.ofNat_toNat]

/-- the units of a whole element are taken for a byte order mark exactly when it is one -/
theorem Whole.unmarked_units {e : Element} (h : e.Whole) (us : Units) :
    unmarked (e.units ++ us) = if e.code = 0xFEFF then us else e.units ++ us := by
  cases e with
  | unit u =>
    have hmark : u = 0xFEFF ↔ (unit u).code = 0xFEFF := UInt16.toNat_inj.symm
    simp [unmarked, units, hmark]
  | pair high low =>
    have hbounds := h.pair_bounds
    have hhigh : high ≠ 0xFEFF := by
      rintro rfl
      exact absurd hbounds.1.2 (by decide)
    have hcode : (pair high low).code ≠ 0xFEFF := by
      rw [code_pair]
      omega
    simp [unmarked, units, hhigh, hcode]

end Element

/-- behind a text that tears no pair, a unit that makes no pair with what follows is mended by itself -/
theorem mendedBehind_unit {front us : Units} {u : UInt16} (hfront : ¬ Torn front (u :: us)) (hback : ¬ Torn [u] us) :
    mendedBehind front (u :: us) = (Element.unit u).kept.units ++ mendedBehind (front ++ [u]) us := by
  have hlone : ((isHighSurrogate u && !beginsLow us) || (isLowSurrogate u && !endsHigh front)) =
      (Element.unit u).isLone := by
    have hback : ¬ (isHighSurrogate u = true ∧ beginsLow us = true) := hback
    have hfront : ¬ (endsHigh front = true ∧ isLowSurrogate u = true) := hfront
    rw [Element.isLone]
    grind
  rw [mendedBehind_cons, hlone, Element.kept]
  split_ifs <;> rfl

/-- a pair is left as it is -/
theorem mendedBehind_pair {high low : UInt16} (hhigh : isHighSurrogate high = true)
    (hlow : isLowSurrogate low = true) (front us : Units) :
    mendedBehind front (high :: low :: us) = [high, low] ++ mendedBehind (front ++ [high, low]) us := by
  have hends : endsHigh (front ++ [high]) = true := by
    rw [endsHigh_append (List.cons_ne_nil high [])]
    exact hhigh
  have hnot : isHighSurrogate low = false := (endsHigh_pair hlow : endsHigh (Element.units (.pair high low)) = false)
  simp [mendedBehind_cons, hhigh, hlow, hends, hnot, not_low_of_high hhigh]

/-- behind a text that tears no pair, a text is mended element by element -/
theorem mendedBehind_eq {front us : Units} (h : ¬ Torn front us) :
    mendedBehind front us = (segment us).flatMap fun e => e.kept.units := by
  fun_induction segment us generalizing front with
  | case1 => rfl
  | case2 u => rw [mendedBehind_unit h fun htorn => absurd htorn.2 (by decide)]; rfl
  | case3 u w rest hpair ih =>
    rw [Bool.and_eq_true] at hpair
    have hends : endsHigh [u, w] = false := endsHigh_pair hpair.2
    have hrest : ¬ Torn (front ++ [u, w]) rest := by
      simp [Torn, endsHigh_append (List.cons_ne_nil u [w]), hends]
    rw [mendedBehind_pair hpair.1 hpair.2, ih hrest]
    rfl
  | case4 u w rest hno ih =>
    have hback : ¬ Torn [u] (w :: rest) := by
      rwa [Bool.and_eq_true] at hno
    have hrest : ¬ Torn (front ++ [u]) (w :: rest) := by
      rwa [Torn, endsHigh_append (List.cons_ne_nil u [])]
    rw [mendedBehind_unit h hback, ih hrest]
    rfl

/-- **UTF-8 keeps of a text what mending keeps.** -/
theorem mended_eq (us : Units) : us.mended = (segment us).flatMap fun e => e.kept.units := by
  rw [← mendedBehind_nil_left, mendedBehind_eq (not_torn_nil us)]

theorem mended_of_wellFormed {us : Units} (h : us.WellFormed) : us.mended = us := by
  have hkept : ∀ e ∈ segment us, e.kept.units = e.units := fun e he => by rw [Element.kept_of_not_lone (h e he)]
  rw [mended_eq, List.flatMap_congr hkept, flatMap_units_segment]

namespace Utf8

/-! ## Octets -/

theorem encodeElement_eq (e : Element) : encodeElement e = encodeCode e.kept.code := by
  rw [encodeElement, Element.kept]
  split_ifs <;> rfl

/-- **The octets of any text are read as the code points of what is kept of it.** -/
theorem decodeFrom_encode {es : List Element} (h : ∀ e ∈ es, e.kept.Whole) :
    decodeFrom .between (es.flatMap encodeElement) = es.map fun e => e.kept.code := by
  induction es with
  | nil => rfl
  | cons e es ih =>
    obtain ⟨hscalar, hlt⟩ := (h e List.mem_cons_self).isScalar_code
    rw [List.flatMap_cons, encodeElement_eq, decodeFrom_encodeCode hscalar hlt,
      ih fun f hf => h f (List.mem_cons_of_mem e hf), List.map_cons]

/-- the octets of a code point are taken for a byte order mark exactly when it is one -/
theorem dropMark_encodeCode {c : Nat} (hc : IsScalar c) (hlt : c < 0x110000) (rest : List UInt8) :
    dropMark (encodeCode c ++ rest) = if c = 0xFEFF then rest else encodeCode c ++ rest := by
  have hmark : encodeCode 0xFEFF = [0xEF, 0xBB, 0xBF] := by decide
  split_ifs with h
  · rw [h, hmark]
    rfl
  · unfold dropMark
    split
    · rename_i tail hoctets
      -- read as code points, the octets would begin both with `c` and with the mark
      have hread := decodeFrom_encodeCode hc hlt rest
      have hmarked := decodeFrom_encodeCode (c := 0xFEFF) (Or.inr (by decide)) (by decide) tail
      rw [hoctets] at hread
      rw [hmark] at hmarked
      exact absurd (List.head_eq_of_cons_eq (hread.symm.trans hmarked)) h
    · rfl

theorem ofCodes_kept {es : List Element} (h : ∀ e ∈ es, e.kept.Whole) :
    ofCodes (es.map fun e => e.kept.code) = es.flatMap fun e => e.kept.units := by
  rw [ofCodes, List.flatMap_map]
  exact List.flatMap_congr fun e he => by rw [(h e he).ofCode_code]

/-- **What is read again is the text mended, without a mark in front.** -/
theorem decode_encode (us : Units) : decode (encode us) = us.mended.unmarked := by
  have hkept : ∀ e ∈ segment us, e.kept.Whole := fun e => Element.whole_kept
  rw [mended_eq, encode]
  cases hes : segment us with
  | nil => rfl
  | cons e es =>
    rw [hes] at hkept
    have hrest : ∀ f ∈ es, f.kept.Whole := fun f hf => hkept f (List.mem_cons_of_mem e hf)
    obtain ⟨hscalar, hlt⟩ := (hkept e List.mem_cons_self).isScalar_code
    rw [decode, List.flatMap_cons, List.flatMap_cons, encodeElement_eq, dropMark_encodeCode hscalar hlt,
      (hkept e List.mem_cons_self).unmarked_units]
    split_ifs
    · rw [decodeFrom_encode hrest, ofCodes_kept hrest]
    · rw [← encodeElement_eq, ← List.flatMap_cons, decodeFrom_encode hkept, ofCodes_kept hkept, List.flatMap_cons]

end Utf8

/-! ## Views -/

/-- **Text survives the byte view**: mended, and without one leading mark; and as it is, if it is well-formed and begins
with no mark. -/
theorem text_survives_octets (us : Units) (buffer : Nat) (offset : Number) :
    let octets : Bytes := .ofOctets (Utf8.encode us) buffer offset
    View.text octets = us.mended.unmarked ∧
    (us.WellFormed → us.head? ≠ some 0xFEFF → View.text octets = us) := by
  intro octets
  have htext : View.text octets = us.mended.unmarked := by
    change Utf8.decode (Span.whole (Utf8.encode us)).content = _
    rw [Span.content_whole, Utf8.decode_encode]
  refine ⟨htext, fun hwhole hmark => ?_⟩
  rw [htext, mended_of_wellFormed hwhole, Units.unmarked, if_neg hmark]

/-- lone halves on both sides of a pair, and two marks of which one leads; and a well-formed text with characters of one
octet, two, three and four, and a mark that does not lead -/
theorem text_survives_octets_but_for_halves :
    let torn : Units := [0xFEFF, 0xDE00, 0xD83D, 0xD83D, 0xDE00, 0xFEFF, 0xD83D]
    let whole : Units := [0xD83D, 0xDE00, 0xFEFF, 0x7FF, 0x7F]
    View.text (Bytes.ofOctets (Utf8.encode torn) 0 (.ofNat 0)) = [0xFFFD, 0xFFFD, 0xD83D, 0xDE00, 0xFEFF, 0xFFFD] ∧
    whole.WellFormed ∧ whole.head? ≠ some 0xFEFF ∧
    View.text (Bytes.ofOctets (Utf8.encode whole) 0 (.ofNat 0)) = whole := by
  intro torn whole
  have hmended : torn.mended.unmarked = [0xFFFD, 0xFFFD, 0xD83D, 0xDE00, 0xFEFF, 0xFFFD] := by decide
  have hwhole : whole.WellFormed := by decide
  have hmark : whole.head? ≠ some 0xFEFF := by decide
  refine ⟨?_, hwhole, hmark, (text_survives_octets whole 0 (.ofNat 0)).2 hwhole hmark⟩
  rw [← hmended]
  exact (text_survives_octets torn 0 (.ofNat 0)).1

end SliceParser
