/-
WELL-FORMED TEXTS: no surrogate stands alone, and so every element is a code point.

- `Element.Whole`: a unit that is no surrogate, or a high surrogate with a low one. Its code is a scalar value
  (`isScalar_code`), and no other whole element has it (`code_injective`).
- `Units.WellFormed`: no element of the text is a surrogate that stands alone. All of them are whole
  (`whole_of_mem_segment`).
- `selfSynchronizing_units`: **the units of whole elements can be told apart**, as no such element begins with a low
  surrogate.
-/
import SliceParser.Proofs.Unicode.LowerCase
import SliceParser.Proofs.View.SelfSynchronizing

namespace SliceParser

theorem isLowSurrogate_eq (u : UInt16) : isLowSurrogate u = decide (0xDC00 ≤ u.toNat ∧ u.toNat ≤ 0xDFFF) := by
  rw [isLowSurrogate, Bool.eq_iff_iff]
  rw [Bool.and_eq_true, decide_eq_true_eq, decide_eq_true_eq, decide_eq_true_eq, UInt16.le_iff_toNat_le,
    UInt16.le_iff_toNat_le]
  exact Iff.rfl

namespace Element

/-- a code point: a unit that is no surrogate, or a high surrogate and a low one -/
def Whole : Element → Prop
  | .unit u => isHighSurrogate u = false ∧ isLowSurrogate u = false
  | .pair high low => isHighSurrogate high = true ∧ isLowSurrogate low = true

/-- what the halves of a pair are, as numbers -/
theorem Whole.pair_bounds {high low : UInt16} (h : (Element.pair high low).Whole) :
    (0xD800 ≤ high.toNat ∧ high.toNat ≤ 0xDBFF) ∧ 0xDC00 ≤ low.toNat ∧ low.toNat ≤ 0xDFFF := by
  obtain ⟨hhigh, hlow⟩ := h
  rw [isHighSurrogate_eq, decide_eq_true_eq] at hhigh
  rw [isLowSurrogate_eq, decide_eq_true_eq] at hlow
  exact ⟨hhigh, hlow⟩

theorem code_unit (u : UInt16) : (Element.unit u).code = u.toNat := rfl

theorem code_pair (high low : UInt16) :
    (Element.pair high low).code = 0x10000 + (high.toNat - 0xD800) * 0x400 + (low.toNat - 0xDC00) := rfl

theorem code_unit_lt (u : UInt16) : (Element.unit u).code < 0x10000 := u.toNat_lt

/-- the code of a whole element is a scalar value -/
theorem Whole.isScalar_code {e : Element} (h : e.Whole) : IsScalar e.code ∧ e.code < 0x110000 := by
  cases e with
  | unit u =>
    obtain ⟨hhigh, hlow⟩ := h
    rw [isHighSurrogate_eq, decide_eq_false_iff_not, IsHighCode] at hhigh
    rw [isLowSurrogate_eq, decide_eq_false_iff_not] at hlow
    have hcode : (Element.unit u).code = u.toNat := rfl
    have hlt := code_unit_lt u
    rw [IsScalar]
    omega
  | pair high low =>
    have hbounds := h.pair_bounds
    rw [IsScalar, code_pair]
    omega

theorem Whole.code_injective {e f : Element} (he : e.Whole) (hf : f.Whole) (h : e.code = f.code) : e = f := by
  cases e with
  | unit u =>
    cases f with
    | unit w => rw [UInt16.toNat_inj.1 h]
    | pair high low =>
      have hlt := code_unit_lt u
      rw [h, code_pair] at hlt
      omega
  | pair high low =>
    cases f with
    | unit w =>
      have hlt := code_unit_lt w
      rw [← h, code_pair] at hlt
      omega
    | pair high' low' =>
      have hbounds := he.pair_bounds
      have hbounds' := hf.pair_bounds
      rw [code_pair, code_pair] at h
      have hhigh : high = high' := UInt16.toNat_inj.1 (by omega)
      have hlow : low = low' := UInt16.toNat_inj.1 (by omega)
      rw [hhigh, hlow]

end Element

namespace Units

/-- no surrogate stands alone -/
def WellFormed (us : Units) : Prop :=
  ∀ e ∈ segment us, e.isLone = false

instance (us : Units) : Decidable us.WellFormed :=
  List.decidableBAll (fun e : Element => e.isLone = false) (segment us)

theorem WellFormed.whole_of_mem_segment {us : Units} (h : us.WellFormed) {e : Element} (he : e ∈ segment us) :
    e.Whole := by
  cases e with
  | unit u =>
    have hlone := h _ he
    rw [Element.isLone, Bool.or_eq_false_iff] at hlone
    exact hlone
  | pair high low => exact surrogates_of_mem_segment he

end Units

/-- **The units of whole elements can be told apart.** -/
theorem selfSynchronizing_units : SelfSynchronizing Element.units (fun u => !isLowSurrogate u) Element.Whole where
  begins e he := by
    cases e with
    | unit u => exact ⟨u, [], rfl, by rw [he.2]; rfl, by simp⟩
    | pair high low => exact ⟨high, [low], rfl, by rw [not_low_of_high he.1]; rfl, by simp [he.2]⟩
  eq_of_prefix e f he hf hpre := by
    cases e with
    | unit u =>
      cases f with
      | unit w =>
        obtain ⟨rfl, -⟩ := List.cons_prefix_cons.1 hpre
        rfl
      | pair high low =>
        obtain ⟨rfl, -⟩ := List.cons_prefix_cons.1 hpre
        exact absurd (he.1.symm.trans hf.1) (by decide)
    | pair high low =>
      cases f with
      | unit w =>
        obtain ⟨-, hnil⟩ := List.cons_prefix_cons.1 hpre
        exact absurd (List.prefix_nil.1 hnil) (by simp)
      | pair high' low' =>
        obtain ⟨rfl, htail⟩ := List.cons_prefix_cons.1 hpre
        obtain ⟨rfl, -⟩ := List.cons_prefix_cons.1 htail
        rfl

end SliceParser
