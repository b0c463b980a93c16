/-
ASCII: the texts that are the same unit by unit, element by element and octet by octet.

- `segment_ascii`, `encode_ascii`: every unit of an ASCII text is an element, and its octet is the unit itself
  (`toUInt8_inj` tells octets apart). Such a text is well formed (`IsAscii.wellFormed`).
- `lowerCode_ascii`: no row of the case data but the first reaches into ASCII, and the first holds the capitals.
- `lower_ascii`: **the full lower case of an ASCII unit is its octet in ASCII lower case**, so that two units fold alike
  exactly when their octets do (`lower_eq_iff`).
-/
import SliceParser.Proofs.Unicode.Utf8
import SliceParser.View.Bytes

namespace SliceParser

namespace Units

/-- no unit beyond ASCII -/
def IsAscii (us : Units) : Prop :=
  ∀ u ∈ us, u.toNat < 0x80

instance (us : Units) : Decidable us.IsAscii :=
  List.decidableBAll (fun u : UInt16 => u.toNat < 0x80) us

theorem IsAscii.head {u : UInt16} {us : Units} (h : IsAscii (u :: us)) : u.toNat < 0x80 :=
  h u List.mem_cons_self

theorem IsAscii.tail {u : UInt16} {us : Units} (h : IsAscii (u :: us)) : us.IsAscii :=
  fun w hw => h w (List.mem_cons_of_mem _ hw)

end Units

open SliceParser.Units

/-! ## Elements and octets -/

/-- no ASCII unit is a surrogate -/
theorem not_surrogate_of_ascii {u : UInt16} (h : u.toNat < 0x80) :
    isHighSurrogate u = false ∧ isLowSurrogate u = false := by
  rw [isHighSurrogate_eq, isLowSurrogate_eq, decide_eq_false_iff_not, decide_eq_false_iff_not, IsHighCode]
  omega

theorem segment_ascii {us : Units} (h : us.IsAscii) : segment us = us.map .unit := by
  induction us with
  | nil => rfl
  | cons u us ih =>
    have hwhole : ¬ Torn [u] us := by
      rintro ⟨hhigh, -⟩
      exact absurd (hhigh.symm.trans (not_surrogate_of_ascii h.head).1) (by decide)
    rw [segment_unit hwhole, ih h.tail, List.map_cons]

theorem Units.IsAscii.wellFormed {us : Units} (h : us.IsAscii) : us.WellFormed := by
  rw [WellFormed, segment_ascii h]
  intro e he
  obtain ⟨u, hu, rfl⟩ := List.mem_map.1 he
  obtain ⟨hhigh, hlow⟩ := not_surrogate_of_ascii (h u hu)
  rw [Element.isLone, hhigh, hlow]
  rfl

theorem toNat_toUInt8 {u : UInt16} (h : u.toNat < 0x80) : u.toUInt8.toNat = u.toNat := by
  rw [UInt16.toNat_toUInt8]
  omega

theorem toUInt8_inj {u w : UInt16} (hu : u.toNat < 0x80) (hw : w.toNat < 0x80) :
    u.toUInt8 = w.toUInt8 ↔ u = w := by
  rw [← UInt8.toNat_inj, toNat_toUInt8 hu, toNat_toUInt8 hw, UInt16.toNat_inj]

theorem encodeElement_ascii {u : UInt16} (h : u.toNat < 0x80) : Utf8.encodeElement (.unit u) = [u.toUInt8] := by
  have hwhole : (Element.unit u).Whole := not_surrogate_of_ascii h
  rw [Utf8.encodeElement_whole hwhole, Element.code_unit, Utf8.encodeCode, if_pos h]
  rfl

theorem encode_ascii {us : Units} (h : us.IsAscii) : Utf8.encode us = us.map UInt16.toUInt8 := by
  rw [Utf8.encode, segment_ascii h, List.flatMap_map]
  induction us with
  | nil => rfl
  | cons u us ih => rw [List.flatMap_cons, encodeElement_ascii h.head, ih h.tail, List.singleton_append, List.map_cons]

/-! ## Case -/

namespace LowerCase

theorem mappings_tail_beyond : ∀ m ∈ mappings.tail, 0x80 ≤ m.first := by
  decide +kernel

/-- in ASCII only the capitals have another lower case -/
theorem lowerCode_ascii {c : Nat} (h : c < 0x80) :
    lowerCode c = [if 0x41 ≤ c ∧ c ≤ 0x5A then c + 0x20 else c] := by
  have hrows : mappings = ⟨0x41, 0x5A, 1, 32⟩ :: mappings.tail := rfl
  have hbeyond : mappings.tail.find? (·.covers c) = none := by
    rw [List.find?_eq_none]
    intro m hm hcovers
    have hfirst := mappings_tail_beyond m hm
    simp only [Mapping.covers, Bool.and_eq_true, decide_eq_true_eq] at hcovers
    omega
  rw [lowerCode, if_neg (by omega), hrows, List.find?_cons, hbeyond]
  by_cases hcapital : 0x41 ≤ c ∧ c ≤ 0x5A
  · have hcovers : Mapping.covers ⟨0x41, 0x5A, 1, 32⟩ c = true := by
      simp [Mapping.covers, hcapital, Nat.mod_one]
    rw [hcovers, if_pos hcapital]
    rfl
  · have hcovers : Mapping.covers ⟨0x41, 0x5A, 1, 32⟩ c = false := by
      simp only [Mapping.covers, Nat.mod_one, decide_true, Bool.and_true, Bool.and_eq_false_iff, decide_eq_false_iff_not]
      omega
    rw [hcovers, if_neg hcapital]

theorem toNat_asciiLower (b : UInt8) :
    (asciiLower b).toNat = if 0x41 ≤ b.toNat ∧ b.toNat ≤ 0x5A then b.toNat + 0x20 else b.toNat := by
  have hcapital : (0x41 ≤ b && b ≤ 0x5A) = true ↔ 0x41 ≤ b.toNat ∧ b.toNat ≤ 0x5A := by
    rw [Bool.and_eq_true, decide_eq_true_eq, decide_eq_true_eq, UInt8.le_iff_toNat_le, UInt8.le_iff_toNat_le]
    exact Iff.rfl
  rw [asciiLower]
  by_cases h : 0x41 ≤ b.toNat ∧ b.toNat ≤ 0x5A
  · rw [if_pos (hcapital.2 h), if_pos h, UInt8.toNat_add]
    change (b.toNat + 0x20) % 256 = _
    omega
  · rw [if_neg fun hb => h (hcapital.1 hb), if_neg h]

/-- **The full lower case of an ASCII unit is its octet in ASCII lower case.** -/
theorem lower_ascii {u : UInt16} (h : u.toNat < 0x80) : lower [u] = [(asciiLower u.toUInt8).toUInt16] := by
  have hsegment : segment [u] = [.unit u] := rfl
  have hcode : lowerCode u.toNat = [(asciiLower u.toUInt8).toNat] := by
    rw [lowerCode_ascii h, toNat_asciiLower, toNat_toUInt8 h]
  have hone : (asciiLower u.toUInt8).toNat < 0x10000 := (UInt8.toNat_lt _).trans (by decide)
  rw [lower, hsegment, lowerElements, Element.code_unit, if_neg (by omega), hcode, lowerElements, List.append_nil,
    ofCodes, List.flatMap_singleton, Element.ofCode, if_pos hone, UInt16.ofNat_uInt8ToNat]
  rfl

theorem lower_eq_iff {u w : UInt16} (hu : u.toNat < 0x80) (hw : w.toNat < 0x80) :
    lower [u] = lower [w] ↔ asciiLower u.toUInt8 = asciiLower w.toUInt8 := by
  rw [lower_ascii hu, lower_ascii hw, List.singleton_inj, UInt8.toUInt16_inj]

end LowerCase

end SliceParser
