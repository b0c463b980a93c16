/-
LOWER CASE and the edges of a text: no case mapping makes a surrogate or takes one away.

- `mappings_keepOff`: every row of the case data lies on one side of the surrogates, and so does what it maps to.
- `lowerCode_surrogate`, `not_surrogate_of_mem_lowerCode`: a surrogate that stands alone is its own lower case, and no
  other code point becomes one.
- `endsHigh_lower`: **a text ends in a high surrogate exactly when its lower case does.**
-/
import SliceParser.Proofs.Unicode.Segment
import SliceParser.Unicode.LowerCase
import Mathlib.Tactic

namespace SliceParser

/-! ## Code points -/

/-- the code points that are high surrogates when they stand alone -/
def IsHighCode (code : Nat) : Prop := 0xD800 ≤ code ∧ code ≤ 0xDBFF

instance (code : Nat) : Decidable (IsHighCode code) :=
  inferInstanceAs (Decidable (_ ∧ _))

/-- the code points that are no surrogates -/
def IsScalar (code : Nat) : Prop := code < 0xD800 ∨ 0xE000 ≤ code

theorem not_isHighCode_of_isScalar {code : Nat} (h : IsScalar code) : ¬ IsHighCode code := by
  rintro ⟨hge, hle⟩
  rcases h with hlt | hgt
  · omega
  · omega

theorem isHighSurrogate_eq (u : UInt16) : isHighSurrogate u = decide (IsHighCode u.toNat) := by
  rw [isHighSurrogate, Bool.eq_iff_iff]
  rw [Bool.and_eq_true, decide_eq_true_eq, decide_eq_true_eq, decide_eq_true_eq, UInt16.le_iff_toNat_le,
    UInt16.le_iff_toNat_le]
  exact Iff.rfl

namespace Units

theorem endsHigh_unit (u : UInt16) : endsHigh (Element.units (.unit u)) = decide (IsHighCode u.toNat) :=
  isHighSurrogate_eq u

/-- a pair ends in its low half -/
theorem endsHigh_pair {high low : UInt16} (h : isLowSurrogate low = true) :
    endsHigh (Element.units (.pair high low)) = false := by
  change isHighSurrogate low = false
  by_contra hhigh
  rw [Bool.not_eq_false] at hhigh
  rw [not_low_of_high hhigh] at h
  exact absurd h (by decide)

/-- an element that is spelled from its code ends in a high surrogate if that code is one -/
theorem endsHigh_ofCode (code : Nat) : endsHigh (Element.ofCode code).units = decide (IsHighCode code) := by
  unfold Element.ofCode
  split_ifs with h
  · rw [endsHigh_unit, UInt16.toNat_ofNat_of_lt' h]
  · have hnot : ¬ IsHighCode code := by
      rintro ⟨-, hle⟩
      omega
    rw [decide_eq_false hnot]
    apply endsHigh_pair
    have hmod : (code - 0x10000) % 0x400 < 0x400 := Nat.mod_lt _ (by decide)
    have hsize : 0xDC00 + (code - 0x10000) % 0x400 < UInt16.size := by
      rw [UInt16.size]
      omega
    rw [isLowSurrogate, Bool.and_eq_true, decide_eq_true_eq, decide_eq_true_eq, UInt16.le_iff_toNat_le,
      UInt16.le_iff_toNat_le, UInt16.toNat_ofNat_of_lt' hsize]
    exact ⟨Nat.le_add_right _ _, by change _ ≤ 0xDFFF; omega⟩

theorem endsHigh_ofCodes {codes : List Nat} {last : Nat} (h : codes.getLast? = some last) :
    endsHigh (ofCodes codes) = decide (IsHighCode last) := by
  obtain ⟨front, rfl⟩ := List.getLast?_eq_some_iff.1 h
  rw [ofCodes, List.flatMap_append, List.flatMap_singleton, endsHigh_append (Element.units_ne_nil _), endsHigh_ofCode]

theorem ofCodes_ne_nil {codes : List Nat} {last : Nat} (h : codes.getLast? = some last) : ofCodes codes ≠ [] := by
  obtain ⟨front, rfl⟩ := List.getLast?_eq_some_iff.1 h
  rw [ofCodes, List.flatMap_append, List.flatMap_singleton]
  exact List.append_ne_nil_of_right_ne_nil _ (Element.units_ne_nil _)

end Units

namespace LowerCase

open SliceParser.Units

/-! ## Mappings -/

/-- the row and what it maps to lie on the same side of the surrogates -/
def Mapping.keepsOff (m : Mapping) : Bool :=
  (m.last < 0xD800 && m.last + m.shift < 0xD800) || (0xE000 ≤ m.first && 0xE000 ≤ m.first + m.shift)

theorem mappings_keepOff : ∀ m ∈ mappings, m.keepsOff = true := by
  decide +kernel

/-- a code point is lowered by a row that covers it, or it stays; one of them becomes two -/
theorem lowerCode_cases (code : Nat) :
    (code = 0x130 ∧ lowerCode code = [0x69, 0x307]) ∨
    (∃ m ∈ mappings, m.covers code = true ∧ lowerCode code = [(code + m.shift).toNat]) ∨
    lowerCode code = [code] := by
  unfold lowerCode
  split_ifs with h
  · exact Or.inl ⟨h, rfl⟩
  · split
    · rename_i m hfind
      have hcovers := List.find?_some (p := fun m : Mapping => m.covers code) hfind
      exact Or.inr (Or.inl ⟨m, List.mem_of_find?_eq_some hfind, hcovers, rfl⟩)
    · exact Or.inr (Or.inr rfl)

/-- rows cover scalar code points only, and map them to scalar code points -/
theorem isScalar_of_covers {m : Mapping} (hm : m ∈ mappings) {code : Nat} (hcovers : m.covers code = true) :
    IsScalar code ∧ IsScalar (code + m.shift).toNat := by
  have hoff := mappings_keepOff m hm
  simp only [Mapping.keepsOff, Bool.or_eq_true, Bool.and_eq_true, decide_eq_true_eq] at hoff
  simp only [Mapping.covers, Bool.and_eq_true, decide_eq_true_eq] at hcovers
  obtain ⟨⟨hfirst, hlast⟩, -⟩ := hcovers
  rcases hoff with ⟨hbelow, hbelow'⟩ | ⟨habove, habove'⟩
  · exact ⟨Or.inl (by omega), Or.inl (by omega)⟩
  · exact ⟨Or.inr (by omega), Or.inr (by omega)⟩

theorem lowerCode_surrogate {code : Nat} (h : ¬ IsScalar code) : lowerCode code = [code] := by
  rcases lowerCode_cases code with ⟨rfl, -⟩ | ⟨m, hm, hcovers, -⟩ | hsame
  · exact absurd (Or.inl (by decide)) h
  · exact absurd (isScalar_of_covers hm hcovers).1 h
  · exact hsame

theorem isScalar_of_mem_lowerCode {code c : Nat} (h : IsScalar code) (hc : c ∈ lowerCode code) : IsScalar c := by
  rcases lowerCode_cases code with ⟨-, htwo⟩ | ⟨m, hm, hcovers, hone⟩ | hsame
  · rw [htwo] at hc
    rcases List.mem_pair.1 hc with rfl | rfl
    · exact Or.inl (by decide)
    · exact Or.inl (by decide)
  · rw [hone, List.mem_singleton] at hc
    rw [hc]
    exact (isScalar_of_covers hm hcovers).2
  · rw [hsame, List.mem_singleton] at hc
    rwa [hc]

/-- there is a last code point, and it is a high surrogate just when the one that is lowered is -/
theorem getLast?_lowerCode (code : Nat) :
    ∃ last, (lowerCode code).getLast? = some last ∧ (IsHighCode last ↔ IsHighCode code) := by
  by_cases h : IsScalar code
  · have hne : lowerCode code ≠ [] := by
      rcases lowerCode_cases code with ⟨-, htwo⟩ | ⟨m, -, -, hone⟩ | hsame
      · simp [htwo]
      · simp [hone]
      · simp [hsame]
    refine ⟨_, List.getLast?_eq_some_getLast hne, ?_⟩
    have hlast := isScalar_of_mem_lowerCode h (List.getLast_mem hne)
    exact iff_of_false (not_isHighCode_of_isScalar hlast) (not_isHighCode_of_isScalar h)
  · exact ⟨code, by rw [lowerCode_surrogate h, List.getLast?_singleton], Iff.rfl⟩

/-! ## Texts -/

/-- an element is lowered by its mapping, and a capital sigma to one of two small ones -/
theorem lowerElements_cons (before : List Element) (e : Element) (rest : List Element) :
    ∃ codes last, lowerElements before (e :: rest) = ofCodes codes ++ lowerElements (e :: before) rest ∧
      codes.getLast? = some last ∧ (IsHighCode last ↔ IsHighCode e.code) := by
  by_cases hsigma : e.code = 0x3A3
  · have hnot : ¬ IsHighCode e.code := by
      rw [hsigma]
      decide
    by_cases hfinal : (meetsCased before && !meetsCased rest) = true
    · refine ⟨[0x3C2], 0x3C2, ?_, rfl, iff_of_false (by decide) hnot⟩
      rw [lowerElements, if_pos hsigma, if_pos hfinal]
    · refine ⟨[0x3C3], 0x3C3, ?_, rfl, iff_of_false (by decide) hnot⟩
      rw [lowerElements, if_pos hsigma, if_neg hfinal]
  · obtain ⟨last, hlast, hiff⟩ := getLast?_lowerCode e.code
    refine ⟨lowerCode e.code, last, ?_, hlast, hiff⟩
    rw [lowerElements, if_neg hsigma]

theorem lowerElements_ne_nil (before : List Element) (e : Element) (rest : List Element) :
    lowerElements before (e :: rest) ≠ [] := by
  obtain ⟨codes, last, hcons, hlast, -⟩ := lowerElements_cons before e rest
  rw [hcons]
  exact List.append_ne_nil_of_left_ne_nil (ofCodes_ne_nil hlast) _

/-- the second half of every pair is a low surrogate -/
def Paired (es : List Element) : Prop :=
  ∀ high low, Element.pair high low ∈ es → isLowSurrogate low = true

theorem endsHigh_element {e : Element} (h : Paired [e]) : endsHigh e.units = decide (IsHighCode e.code) := by
  cases e with
  | unit u => exact endsHigh_unit u
  | pair high low =>
    have hge : 0x10000 ≤ (Element.pair high low).code := Nat.le_trans (Nat.le_add_right _ _) (Nat.le_add_right _ _)
    have hnot : ¬ IsHighCode (Element.pair high low).code := by
      intro hhigh
      exact absurd (Nat.le_trans hge hhigh.2) (by decide)
    rw [decide_eq_false hnot]
    exact endsHigh_pair (h high low List.mem_cons_self)

theorem endsHigh_lowerElements {es : List Element} (h : Paired es) (before : List Element) :
    endsHigh (lowerElements before es) = endsHigh (es.flatMap Element.units) := by
  induction es generalizing before with
  | nil => rfl
  | cons e rest ih =>
    obtain ⟨codes, last, hcons, hlast, hiff⟩ := lowerElements_cons before e rest
    have htail : Paired rest := fun high low hmem => h high low (List.mem_cons_of_mem _ hmem)
    rw [hcons, List.flatMap_cons]
    cases rest with
    | nil =>
      rw [lowerElements, List.flatMap_nil, List.append_nil, List.append_nil, endsHigh_ofCodes hlast,
        endsHigh_element h, decide_eq_decide]
      exact hiff
    | cons e' rest =>
      have hne : (e' :: rest).flatMap Element.units ≠ [] := by
        rw [List.flatMap_cons]
        exact List.append_ne_nil_of_left_ne_nil e'.units_ne_nil _
      rw [endsHigh_append (lowerElements_ne_nil _ _ _), endsHigh_append hne, ih htail]

/-- **A text ends in a high surrogate exactly when its lower case does.** -/
theorem endsHigh_lower (us : Units) : endsHigh (lower us) = endsHigh us := by
  rw [lower, endsHigh_lowerElements fun _ _ hmem => (surrogates_of_mem_segment hmem).2, flatMap_units_segment]

end LowerCase

end SliceParser
