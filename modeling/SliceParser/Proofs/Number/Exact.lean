/-
EXACT NUMBERS: integers of magnitude at most 2 to the 53 round to themselves, and so sums that stay among them are
exact.

- `round_of_multiple`: a number that is an integer multiple of its own spacing is not changed by rounding.
- `round_intCast`: integers in reach are such multiples. Up to 2^53 the spacing is at most 1; at 2^53 itself it is 2.
- `add_ofInt`: **the sum of two integers is exact when it is in reach.**
- `IsSafe`: the integers that no other integer rounds to. A position at one of them is a position that can be found
  again, because a sum that starts from a finite number is never not-a-number (`add_ofNat_ne_nan`).
-/
import SliceParser.Number.Basic
import Mathlib.Tactic

namespace SliceParser.Number

/-! ## Rounding -/

theorem roundEven_intCast (n : Int) : roundEven n = n := by
  have hpast : (n : Rat) - (n : Int) < 1 / 2 := by norm_num
  simp only [roundEven, Rat.floor_intCast, if_pos hpast]

theorem spacing_pos (q : Rat) : 0 < spacing q :=
  Rat.zpow_pos (by norm_num)

theorem round_of_multiple {q : Rat} {n : Int} (hq : q = n * spacing q) (hlt : q.abs < Rat.zpow 2 1024) :
    round q = .finite q := by
  by_cases h0 : q = 0
  · rw [round, if_pos h0, h0]
  have hn : q / spacing q = n := by
    rw [div_eq_iff (spacing_pos q).ne']
    exact hq
  simp only [round, if_neg h0, hn, roundEven_intCast, ← hq, if_pos hlt]

theorem abs_intCast (i : Int) : (i : Rat).abs = (i.natAbs : Int) := by
  rcases le_total 0 i with h | h
  · rw [Rat.abs_of_nonneg (by exact_mod_cast h), Int.natAbs_of_nonneg h]
  · rw [Rat.abs_of_nonpos (by exact_mod_cast h), Int.ofNat_natAbs_of_nonpos h]
    push_cast
    rfl

/-- the spacing at an integer goes by its binary length alone: it is never as fine as the least subnormal -/
theorem spacing_intCast {i : Int} (h : i ≠ 0) : spacing i = 2 ^ ((i.natAbs.log2 : Int) - 52) := by
  have hone : (1 : Rat) ≤ ((i.natAbs : Int) : Rat) := by
    have : 1 ≤ i.natAbs := Int.natAbs_pos.2 h
    exact_mod_cast this
  have hexp : max ((i.natAbs.log2 : Int) - 52) (-1074) = (i.natAbs.log2 : Int) - 52 := by omega
  simp only [spacing, floorLog2, abs_intCast, if_pos hone, Rat.floor_intCast, Int.toNat_natCast, hexp]
  rfl

theorem round_intCast {i : Int} (h : i.natAbs ≤ 2 ^ 53) : round i = .finite i := by
  by_cases h0 : i = 0
  · simp [round, h0]
  have hne : i.natAbs ≠ 0 := Int.natAbs_ne_zero.2 h0
  have hlt : (i : Rat).abs < Rat.zpow 2 1024 := by
    rw [abs_intCast]
    calc ((i.natAbs : Int) : Rat) ≤ 2 ^ 53 := by exact_mod_cast h
      _ < 2 ^ 1024 := pow_lt_pow_right₀ (by norm_num) (by norm_num)
  rcases h.lt_or_eq with hsmall | hedge
  · have hlog : i.natAbs.log2 ≤ 52 := by
      have := (Nat.log2_lt hne).2 hsmall
      omega
    refine round_of_multiple (n := i * 2 ^ (52 - i.natAbs.log2)) ?_ hlt
    rw [spacing_intCast h0]
    push_cast
    rw [mul_assoc, ← zpow_natCast, ← zpow_add₀ (by norm_num), Nat.cast_sub hlog]
    simp
  · -- the one power of two in reach whose spacing is not 1 is even
    have hlog : i.natAbs.log2 = 53 := by rw [hedge, Nat.log2_two_pow]
    refine round_of_multiple (n := i / 2) ?_ hlt
    rw [spacing_intCast h0, hlog]
    have hhalf : i = i / 2 * 2 := by omega
    have : (i : Rat) = (i / 2 : Int) * 2 := by exact_mod_cast hhalf
    simpa using this

theorem round_ne_nan (q : Rat) : round q ≠ .nan := by
  simp only [round]
  split_ifs <;> simp

/-! ## Sums -/

/-- **Sums in reach are exact.** -/
theorem add_ofInt {i j : Int} (h : (i + j).natAbs ≤ 2 ^ 53) : (ofInt i).add (ofInt j) = ofInt (i + j) := by
  have hsum : (i : Rat) + (j : Rat) = ((i + j : Int) : Rat) := by push_cast; rfl
  simp only [ofInt, add, hsum, round_intCast h]

theorem add_ofNat {i : Int} {n : Nat} (h : (i + n).natAbs ≤ 2 ^ 53) : (ofInt i).add (ofNat n) = ofInt (i + n) :=
  add_ofInt h

theorem add_ofNat_ne_nan {x : Number} (hx : x ≠ .nan) (n : Nat) : x.add (ofNat n) ≠ .nan := by
  cases x with
  | nan => exact absurd rfl hx
  | infinite negative => simp [add, ofNat]
  | finite q => exact round_ne_nan _

theorem same_self {x : Number} (hx : x ≠ .nan) : x.same x = true := by
  simp [same, hx]

/-- an integer below 2 to the 53 in magnitude -/
def IsSafe (x : Number) : Prop :=
  ∃ i : Int, x = ofInt i ∧ i.natAbs < 2 ^ 53

theorem IsSafe.ne_nan {x : Number} (hx : x.IsSafe) : x ≠ .nan := by
  obtain ⟨i, rfl, -⟩ := hx
  simp [ofInt]

end SliceParser.Number
