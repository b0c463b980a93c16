/-
CASE ELEMENT BY ELEMENT: what an element may become in lower case, and what the lower case tells of the element.

- `mappings_keepPage`: every row of the case data stays within 16 bits, or beyond them within the code points that have
  their high surrogate in common. So the first half of a pair stays, and no letter becomes a pair.
- `LowersTo`: a surrogate that stands alone stays as it is, a letter becomes letters, and a pair becomes a pair with the
  same first half. `lowerElements_step` says that this is so of each element, whatever is around it.
- `beginsLow_lower`: a text begins with a low surrogate exactly when its lower case does.
- `eq_pair_of_lower`: **only a pair with the same first half has the lower case of a pair**, and so as many units as an
  element has are one element if they have its lower case (`segment_of_lower`).
-/
import SliceParser.Proofs.Unicode.WellFormed

namespace SliceParser

open SliceParser.Units

theorem whole_unit_iff {u : UInt16} : (Element.unit u).Whole ↔ IsScalar u.toNat := by
  rw [Element.Whole, isHighSurrogate_eq, isLowSurrogate_eq, decide_eq_false_iff_not, decide_eq_false_iff_not,
    IsHighCode, IsScalar]
  omega

/-- two units that are read as one element are the halves of a pair -/
theorem whole_pair_of_segment {high low : UInt16} (h : segment [high, low] = [.pair high low]) :
    (Element.pair high low).Whole :=
  surrogates_of_mem_segment (h ▸ List.mem_singleton_self _)

namespace LowerCase

/-! ## Mappings -/

/-- the row and what it maps to lie within 16 bits, or beyond them in one page of pairs with the same first half -/
def Mapping.keepsPage (m : Mapping) : Bool :=
  (m.last < 0x10000 && m.last + m.shift < 0x10000) ||
    (0x10000 ≤ m.first && m.last / 0x400 = m.first / 0x400 && (m.first + m.shift) / 0x400 = (m.first : Int) / 0x400 &&
      (m.last + m.shift) / 0x400 = (m.first : Int) / 0x400)

theorem mappings_keepPage : ∀ m ∈ mappings, m.keepsPage = true := by
  decide +kernel

/-- a code point that a row covers is mapped within its own page -/
theorem page_of_covers {m : Mapping} (hm : m ∈ mappings) {code : Nat} (hcovers : m.covers code = true) :
    (code < 0x10000 ∧ (code + m.shift).toNat < 0x10000) ∨
      (0x10000 ≤ code ∧ 0x10000 ≤ (code + m.shift).toNat ∧ (code + m.shift).toNat / 0x400 = code / 0x400) := by
  have hpage := mappings_keepPage m hm
  simp only [Mapping.keepsPage, Bool.or_eq_true, Bool.and_eq_true, decide_eq_true_eq] at hpage
  simp only [Mapping.covers, Bool.and_eq_true, decide_eq_true_eq] at hcovers
  omega

theorem lt_of_mem_lowerCode {code c : Nat} (h : code < 0x10000) (hc : c ∈ lowerCode code) : c < 0x10000 := by
  rcases lowerCode_cases code with ⟨-, htwo⟩ | ⟨m, hm, hcovers, hone⟩ | hsame
  · rw [htwo] at hc
    rcases List.mem_pair.1 hc with rfl | rfl
    · decide
    · decide
  · rw [hone, List.mem_singleton] at hc
    rcases page_of_covers hm hcovers with ⟨-, hlt⟩ | ⟨hge, -⟩
    · rwa [hc]
    · exact absurd h (Nat.not_lt.2 hge)
  · rw [hsame, List.mem_singleton] at hc
    rwa [hc]

/-- a code point beyond 16 bits becomes one of its own page -/
theorem lowerCode_beyond {code : Nat} (h : 0x10000 ≤ code) :
    ∃ c, lowerCode code = [c] ∧ 0x10000 ≤ c ∧ c / 0x400 = code / 0x400 := by
  rcases lowerCode_cases code with ⟨rfl, -⟩ | ⟨m, hm, hcovers, hone⟩ | hsame
  · exact absurd h (by decide)
  · rcases page_of_covers hm hcovers with ⟨hlt, -⟩ | ⟨-, hpage⟩
    · exact absurd h (Nat.not_le.2 hlt)
    · exact ⟨_, hone, hpage⟩
  · exact ⟨code, hsame, h, rfl⟩

theorem lowerCode_ne_nil (code : Nat) : lowerCode code ≠ [] := by
  obtain ⟨last, hlast, -⟩ := getLast?_lowerCode code
  intro hnil
  rw [hnil] at hlast
  exact nomatch hlast

/-! ## Elements -/

/-- what an element may become in lower case -/
inductive LowersTo : Element → Units → Prop
  | lone (u : UInt16) : ¬ (Element.unit u).Whole → LowersTo (.unit u) [u]
  | letter (u : UInt16) (ws : Units) : (Element.unit u).Whole → ws ≠ [] → (∀ w ∈ ws, (Element.unit w).Whole) →
      LowersTo (.unit u) ws
  | pair (high low low' : UInt16) : (Element.pair high low).Whole → (Element.pair high low').Whole →
      LowersTo (.pair high low) [high, low']

theorem LowersTo.ne_nil {e : Element} {ws : Units} (h : LowersTo e ws) : ws ≠ [] := by
  cases h with
  | lone u _ => exact List.cons_ne_nil u []
  | letter u ws _ hne _ => exact hne
  | pair high low low' _ _ => exact List.cons_ne_nil high [low']

theorem LowersTo.beginsLow_eq {e : Element} {ws : Units} (h : LowersTo e ws) : beginsLow ws = beginsLow e.units := by
  cases h with
  | lone u _ => rfl
  | letter u ws hu hne hws =>
    cases ws with
    | nil => exact absurd rfl hne
    | cons w ws => exact (hws w List.mem_cons_self).2.trans hu.2.symm
  | pair high low low' _ _ => rfl

theorem LowersTo.of_pair {high low : UInt16} {ws : Units} (h : LowersTo (.pair high low) ws) :
    ∃ low', (Element.pair high low').Whole ∧ ws = [high, low'] := by
  cases h with
  | pair _ _ low' _ hwhole' => exact ⟨low', hwhole', rfl⟩

theorem whole_of_mem_ofCodes {codes : List Nat} (h : ∀ c ∈ codes, IsScalar c ∧ c < 0x10000) :
    ∀ w ∈ ofCodes codes, (Element.unit w).Whole := by
  intro w hw
  obtain ⟨c, hc, hwc⟩ := List.mem_flatMap.1 hw
  obtain ⟨hscalar, hlt⟩ := h c hc
  rw [Element.ofCode, if_pos hlt, Element.units, List.mem_singleton] at hwc
  rw [hwc, whole_unit_iff, UInt16.toNat_ofNat_of_lt' hlt]
  exact hscalar

/-- codes of one page make pairs with the same first half -/
theorem ofCode_of_page {high low : UInt16} (h : (Element.pair high low).Whole) {c : Nat} (hc : 0x10000 ≤ c)
    (hpage : c / 0x400 = (Element.pair high low).code / 0x400) :
    ∃ low', (Element.pair high low').Whole ∧ Element.ofCode c = .pair high low' := by
  have hbounds := h.pair_bounds
  rw [Element.code_pair] at hpage
  have hhigh : 0xD800 + (c - 0x10000) / 0x400 = high.toNat := by omega
  have hlt : (c - 0x10000) % 0x400 < 0x400 := Nat.mod_lt _ (by decide)
  have hsize : 0xDC00 + (c - 0x10000) % 0x400 < UInt16.size := by
    rw [UInt16.size]
    omega
  refine ⟨UInt16.ofNat (0xDC00 + (c - 0x10000) % 0x400), ⟨h.1, ?_⟩, ?_⟩
  · rw [isLowSurrogate_eq, decide_eq_true_eq, UInt16.toNat_ofNat_of_lt' hsize]
    omega
  · rw [Element.ofCode, if_neg (Nat.not_lt.2 hc), hhigh, UInt16.ofNat_toNat]

theorem lowersTo_letter {u : UInt16} (h : (Element.unit u).Whole) {codes : List Nat} (hne : codes ≠ [])
    (hcodes : ∀ c ∈ codes, IsScalar c ∧ c < 0x10000) : LowersTo (.unit u) (ofCodes codes) := by
  refine .letter u _ h ?_ (whole_of_mem_ofCodes hcodes)
  exact ofCodes_ne_nil (List.getLast?_eq_some_getLast hne)

/-- where its surroundings do not matter, an element is lowered by its mapping -/
theorem lowersTo_lowerCode {e : Element} (he : segment e.units = [e]) : LowersTo e (ofCodes (lowerCode e.code)) := by
  cases e with
  | unit u =>
    have hlt := Element.code_unit_lt u
    by_cases hwhole : (Element.unit u).Whole
    · apply lowersTo_letter hwhole (lowerCode_ne_nil _)
      intro c hc
      exact ⟨isScalar_of_mem_lowerCode hwhole.isScalar_code.1 hc, lt_of_mem_lowerCode hlt hc⟩
    · have hcode : ¬ IsScalar (Element.unit u).code := fun hscalar => hwhole (whole_unit_iff.2 hscalar)
      rw [lowerCode_surrogate hcode, ofCodes, List.flatMap_singleton, Element.ofCode, if_pos hlt, Element.code_unit,
        UInt16.ofNat_toNat]
      exact .lone u hwhole
  | pair high low =>
    have hwhole := whole_pair_of_segment he
    have hbeyond : 0x10000 ≤ (Element.pair high low).code := by
      rw [Element.code_pair]
      omega
    obtain ⟨c, hc, hge, hpage⟩ := lowerCode_beyond hbeyond
    obtain ⟨low', hwhole', hpair⟩ := ofCode_of_page hwhole hge hpage
    rw [hc, ofCodes, List.flatMap_singleton, hpair]
    exact .pair high low low' hwhole hwhole'

/-- **Each element is lowered as its kind allows**, whatever is around it. -/
theorem lowerElements_step (before : List Element) {e : Element} (he : segment e.units = [e]) (rest : List Element) :
    ∃ ws, lowerElements before (e :: rest) = ws ++ lowerElements (e :: before) rest ∧ LowersTo e ws := by
  by_cases hsigma : e.code = 0x3A3
  · -- a capital sigma has two small letters, and the surroundings decide which
    have hletter : ∀ c, IsScalar c ∧ c < 0x10000 → LowersTo e (ofCodes [c]) := by
      intro c hc
      cases e with
      | unit u =>
        have hwhole : (Element.unit u).Whole := by
          rw [whole_unit_iff, ← Element.code_unit, hsigma]
          exact Or.inl (by decide)
        exact lowersTo_letter hwhole (List.cons_ne_nil c []) (by simpa using hc)
      | pair high low =>
        rw [Element.code_pair] at hsigma
        omega
    rw [lowerElements, if_pos hsigma]
    split_ifs
    · exact ⟨_, rfl, hletter 0x3C2 ⟨Or.inl (by decide), by decide⟩⟩
    · exact ⟨_, rfl, hletter 0x3C3 ⟨Or.inl (by decide), by decide⟩⟩
  · rw [lowerElements, if_neg hsigma]
    exact ⟨_, rfl, lowersTo_lowerCode he⟩

theorem lowersTo_lower {e : Element} (he : segment e.units = [e]) : LowersTo e (lower e.units) := by
  obtain ⟨ws, hstep, hlowers⟩ := lowerElements_step [] he []
  rw [lower, he, hstep, lowerElements, List.append_nil]
  exact hlowers

/-! ## Texts -/

/-- **A text begins with a low surrogate exactly when its lower case does.** -/
theorem beginsLow_lower (us : Units) : beginsLow (lower us) = beginsLow us := by
  cases hsegment : segment us with
  | nil =>
    have hnil : us = [] := by rw [← flatMap_units_segment us, hsegment, List.flatMap_nil]
    rw [hnil]
    rfl
  | cons e rest =>
    have hus : us = e.units ++ rest.flatMap Element.units := by
      rw [← flatMap_units_segment us, hsegment, List.flatMap_cons]
    have hparts : segment us = [e] ++ rest := hsegment
    have he : segment e.units = [e] := by simpa using (segment_of_append hparts).1
    obtain ⟨ws, hstep, hlowers⟩ := lowerElements_step [] he rest
    rw [lower, hsegment, hstep, hus, beginsLow_mono hlowers.ne_nil (List.prefix_append _ _), hlowers.beginsLow_eq,
      beginsLow_mono e.units_ne_nil (List.prefix_append _ _)]

/-- two units that are no pair are lowered one by one -/
theorem lower_two {x y : UInt16} (h : ¬ Torn [x] [y]) :
    ∃ ws ws', lower [x, y] = ws ++ ws' ∧ LowersTo (.unit x) ws ∧ LowersTo (.unit y) ws' := by
  have hsegment : segment [x, y] = [.unit x, .unit y] := segment_unit h
  obtain ⟨ws, hfirst, hx⟩ := lowerElements_step [] (e := .unit x) rfl [.unit y]
  obtain ⟨ws', hsecond, hy⟩ := lowerElements_step [.unit x] (e := .unit y) rfl []
  refine ⟨ws, ws', ?_, hx, hy⟩
  rw [lower, hsegment, hfirst, hsecond, lowerElements, List.append_nil]

/-- a pair keeps its first half -/
theorem lower_pair {high low : UInt16} (h : (Element.pair high low).Whole) :
    ∃ low', (Element.pair high low').Whole ∧ lower [high, low] = [high, low'] :=
  (lowersTo_lower (e := .pair high low) (segment_pair h.1 h.2 [])).of_pair

/-- **Only a pair with the same first half has the lower case of a pair.** -/
theorem eq_pair_of_lower {high low x y : UInt16} (h : (Element.pair high low).Whole)
    (heq : lower [x, y] = lower [high, low]) : x = high ∧ isLowSurrogate y = true := by
  obtain ⟨low', hwhole', hliteral⟩ := lower_pair h
  rw [hliteral] at heq
  by_cases htorn : Torn [x] [y]
  · obtain ⟨y', -, hinput⟩ := lower_pair htorn
    obtain ⟨hfirst, -⟩ := List.cons.inj (hinput.symm.trans heq)
    exact ⟨hfirst, htorn.2⟩
  · -- one by one, neither of the two units becomes a half of a pair unless it is that half
    obtain ⟨ws, ws', hboth, hx, hy⟩ := lower_two htorn
    rw [heq] at hboth
    cases hx with
    | letter _ _ _ hne hwhole =>
      cases ws with
      | nil => exact absurd rfl hne
      | cons w ws =>
        obtain ⟨rfl, -⟩ := List.cons.inj hboth
        exact absurd (hwhole'.1.symm.trans (hwhole high List.mem_cons_self).1) (by decide)
    | lone _ _ =>
      obtain ⟨rfl, hlow⟩ := List.cons.inj hboth
      obtain rfl : [low'] = ws' := hlow
      cases hy with
      | lone _ _ => exact absurd hwhole' htorn
      | letter _ _ _ _ hwhole => exact absurd (hwhole'.2.symm.trans (hwhole low' List.mem_cons_self).2) (by decide)

/-- as many units as an element has, with its lower case, are one element -/
theorem segment_of_lower {us : Units} {e : Element} (he : segment e.units = [e]) (hlength : us.length = e.units.length)
    (heq : lower us = lower e.units) : ∃ f, segment us = [f] := by
  cases e with
  | unit u =>
    obtain ⟨x, rfl⟩ := List.length_eq_one_iff.1 hlength
    exact ⟨.unit x, rfl⟩
  | pair high low =>
    obtain ⟨x, y, rfl⟩ := List.length_eq_two.1 hlength
    have hwhole := whole_pair_of_segment he
    obtain ⟨rfl, hlow⟩ := eq_pair_of_lower hwhole heq
    exact ⟨.pair x y, segment_pair hwhole.1 hlow []⟩

end LowerCase

end SliceParser
