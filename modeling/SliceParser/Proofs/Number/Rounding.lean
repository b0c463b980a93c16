/-
ROUNDING of sums: a position that moves forward never falls behind where it was.

- `floorLog2_eq_log`, `spacing_eq`: the spacing of values around a number is a power of two, given by its binary
  logarithm.
- `exists_multiple`: an integer of at most 53 binary digits times a power of two is a multiple of its own spacing.
- `IsRounded`: a number that rounding does not change. Every result of rounding is one (`isRounded_round`), and so is
  every sum with one (`isRounded_add`).
- `le_round`: **what a rounded number is at most, it is still at most when that is rounded.** If the spacing is no
  coarser there, the number itself is a multiple of it; if it is coarser, a power of two lies between.
- `AtMost`: the order of numbers, with not-a-number at most itself. `atMost_add`: a rounded number is at most its sum
  with a natural.
-/
import SliceParser.Proofs.Number.Exact
import Mathlib.Data.Int.Log

namespace SliceParser.Number

/-! ## Spacing -/

theorem abs_eq (q : Rat) : q.abs = |q| := by
  rcases le_total 0 q with h | h
  · rw [Rat.abs_of_nonneg h, abs_of_nonneg h]
  · rw [Rat.abs_of_nonpos h, abs_of_nonpos h]

/-- the logarithm of a number below 1 is taken from its inverse, rounded up -/
theorem clog_two {n : Nat} (hn : 2 ≤ n) : Nat.clog 2 n = (n - 1).log2 + 1 := by
  have hne : n - 1 ≠ 0 := by omega
  apply le_antisymm
  · rw [Nat.clog_le_iff_le_pow one_lt_two]
    have := Nat.lt_log2_self (n := n - 1)
    omega
  · rw [Nat.succ_le_iff, Nat.lt_clog_iff_pow_lt one_lt_two]
    have := Nat.log2_self_le hne
    omega

theorem floorLog2_eq_log {q : Rat} (hq : 0 < q) : floorLog2 q = Int.log 2 q := by
  unfold floorLog2
  split_ifs with hone
  · rw [Int.log_of_one_le_right 2 hone, ← Nat.log2_eq_log_two, ← Int.floor_toNat]
    rfl
  · have hlt : q < 1 := not_le.1 hone
    have hceil : 2 ≤ ⌈q⁻¹⌉₊ := Nat.lt_ceil.2 (by simpa using (one_lt_inv₀ hq).2 hlt)
    have hinv : (1 / q).ceil.toNat = ⌈q⁻¹⌉₊ := by
      rw [one_div, ← Int.ceil_toNat, Rat.ceil_eq_neg_floor_neg]
      rfl
    rw [Int.log_of_right_le_one 2 hlt.le, clog_two hceil, hinv]
    push_cast
    rfl

/-- the exponent of the spacing -/
def gridExponent (q : Rat) : Int :=
  max (Int.log 2 |q| - 52) (-1074)

theorem spacing_eq {q : Rat} (hq : q ≠ 0) : spacing q = 2 ^ gridExponent q := by
  rw [spacing, abs_eq, floorLog2_eq_log (abs_pos.2 hq)]
  rfl

/-- a multiple of a power of two is one of every lower power -/
theorem exists_multiple_of_le {e f : Int} (h : e ≤ f) (n : Int) : ∃ m : Int, (n : Rat) * 2 ^ f = m * 2 ^ e := by
  refine ⟨n * 2 ^ (f - e).toNat, ?_⟩
  push_cast
  rw [mul_assoc, ← zpow_natCast, ← zpow_add₀ two_ne_zero, Int.toNat_of_nonneg (by omega), sub_add_cancel]

theorem exists_multiple {k e : Int} (hk : k.natAbs ≤ 2 ^ 53) (he : -1074 ≤ e) (hne : (k : Rat) * 2 ^ e ≠ 0) :
    ∃ n : Int, (k : Rat) * 2 ^ e = n * spacing (k * 2 ^ e) := by
  have hpow : (0 : Rat) < 2 ^ e := zpow_pos two_pos e
  have habs : |(k : Rat) * 2 ^ e| = (k.natAbs : Rat) * 2 ^ e := by
    rw [abs_mul, abs_of_pos hpow, Nat.cast_natAbs, Int.cast_abs]
  rw [spacing_eq hne]
  rcases hk.lt_or_eq with hsmall | hedge
  · -- fewer than 54 digits: the spacing is no coarser than the power itself
    have hlt : |(k : Rat) * 2 ^ e| < 2 ^ (53 + e) := by
      rw [habs, zpow_add₀ two_ne_zero]
      exact mul_lt_mul_of_pos_right (by exact_mod_cast hsmall) hpow
    have hlog := (Int.lt_zpow_iff_log_lt one_lt_two (abs_pos.2 hne)).1 (by exact_mod_cast hlt)
    apply exists_multiple_of_le
    unfold gridExponent
    omega
  · -- the power of two with 54 digits is even
    have heq : |(k : Rat) * 2 ^ e| = ((2 : Nat) : Rat) ^ (53 + e) := by
      rw [habs, hedge]
      push_cast
      rw [zpow_add₀ two_ne_zero]
      norm_num
    have hlog : Int.log 2 |(k : Rat) * 2 ^ e| = 53 + e := by rw [heq, Int.log_zpow one_lt_two]
    have hgrid : gridExponent (k * 2 ^ e) = e + 1 := by
      rw [gridExponent, hlog]
      omega
    refine ⟨k / 2, ?_⟩
    have hhalf : k = k / 2 * 2 := by omega
    have hcast : (k : Rat) = (k / 2 : Int) * 2 := by exact_mod_cast hhalf
    rw [hgrid, zpow_add_one₀ two_ne_zero, hcast]
    ring

/-! ## Rounding to an integer -/

theorem le_roundEven {n : Int} {q : Rat} (h : (n : Rat) ≤ q) : n ≤ roundEven q := by
  have hfloor : n ≤ q.floor := Int.le_floor.2 h
  simp only [roundEven]
  split_ifs <;> omega

theorem roundEven_le {n : Int} {q : Rat} (h : q ≤ (n : Rat)) : roundEven q ≤ n := by
  have hfloor : (q.floor : Rat) ≤ q := Int.floor_le q
  have hle : q.floor ≤ n := by exact_mod_cast hfloor.trans h
  rcases hle.lt_or_eq with hlt | heq
  · simp only [roundEven]
    split_ifs <;> omega
  · have hpast : q - q.floor < 1 / 2 := by
      rw [heq]
      linarith
    simp only [roundEven, if_pos hpast]
    exact hle

/-! ## Rounded numbers -/

/-- a number that rounding does not change, as is every number that is given or computed -/
def IsRounded : Number → Prop
  | .finite q => round q = .finite q
  | _ => True

/-- what is rounded to an integer is a number of at most 53 digits, counted in spacings -/
theorem natAbs_roundEven_le {q : Rat} (h0 : q ≠ 0) : (roundEven (q / spacing q)).natAbs ≤ 2 ^ 53 := by
  have hs := spacing_pos q
  have hdigits : |q / spacing q| ≤ (2 ^ 53 : Int) := by
    have hlog := Int.lt_zpow_succ_log_self one_lt_two |q|
    have hgrid : Int.log 2 |q| + 1 ≤ 53 + gridExponent q := by
      unfold gridExponent
      omega
    rw [abs_div, abs_of_pos hs, div_le_iff₀ hs, spacing_eq h0]
    calc |q| ≤ 2 ^ (Int.log 2 |q| + 1) := by exact_mod_cast hlog.le
      _ ≤ 2 ^ (53 + gridExponent q) := zpow_le_zpow_right₀ one_le_two hgrid
      _ = (2 ^ 53 : Int) * 2 ^ gridExponent q := by
        rw [zpow_add₀ two_ne_zero]
        norm_num
  obtain ⟨hlow, hhigh⟩ := abs_le.1 hdigits
  have hbelow := le_roundEven (n := -2 ^ 53) (by exact_mod_cast hlow)
  have habove := roundEven_le (n := 2 ^ 53) hhigh
  omega

theorem isRounded_round (q : Rat) : IsRounded (round q) := by
  by_cases h0 : q = 0
  · rw [h0]
    rfl
  simp only [round, if_neg h0]
  split_ifs with hlt
  · show round _ = _
    by_cases hzero : (roundEven (q / spacing q) : Rat) * spacing q = 0
    · rw [hzero]
      rfl
    · have hdigits := natAbs_roundEven_le h0
      rw [spacing_eq h0] at hdigits hlt hzero ⊢
      obtain ⟨n, hn⟩ := exists_multiple hdigits (le_max_right _ _) hzero
      exact round_of_multiple hn hlt
  · trivial

theorem IsRounded.finite_cases {x : Rat} (h : IsRounded (.finite x)) :
    x = 0 ∨ (∃ n : Int, x = n * spacing x) ∧ x.abs < Rat.zpow 2 1024 := by
  by_cases h0 : x = 0
  · exact Or.inl h0
  have h : round x = .finite x := h
  simp only [round, if_neg h0] at h
  split_ifs at h with hlt
  have hvalue := Number.finite.inj h
  rw [hvalue] at hlt
  exact Or.inr ⟨⟨_, hvalue.symm⟩, hlt⟩

/-- what is above a number, and further from zero by a binary digit, is above zero -/
theorem pos_of_log_lt {x q : Rat} (hle : x ≤ q) (hq : q ≠ 0) (hlog : Int.log 2 |x| < Int.log 2 |q|) : 0 < q := by
  by_contra hneg
  have hnonpos := not_lt.1 hneg
  have habs : |q| ≤ |x| := by
    rw [abs_of_nonpos hnonpos, abs_of_nonpos (hle.trans hnonpos)]
    linarith
  have := Int.log_mono_right (b := 2) (abs_pos.2 hq) habs
  omega

/-- the greatest power of two that is at most `q` is a multiple of the spacing at `q`, unless that is the least one -/
theorem two_pow_mul_spacing {q : Rat} (hq : q ≠ 0) (hgrid : gridExponent q = Int.log 2 |q| - 52) :
    ((2 ^ 52 : Int) : Rat) * spacing q = 2 ^ Int.log 2 |q| := by
  have hcast : ((2 ^ 52 : Int) : Rat) = 2 ^ (52 : Int) := by norm_num
  rw [spacing_eq hq, hgrid, hcast, ← zpow_add₀ two_ne_zero, add_sub_cancel]

/-- a multiple of the spacing at `q` that is no more than `q` and no less than a rounded number below it -/
theorem exists_between {x q : Rat} (hx : x = 0 ∨ ∃ n : Int, x = n * spacing x) (hle : x ≤ q) (hq : q ≠ 0) :
    ∃ m : Int, x ≤ m * spacing q ∧ m * spacing q ≤ q := by
  by_cases h0 : x = 0
  · exact ⟨0, by simp [h0], by simpa [h0] using hle⟩
  obtain ⟨n, hn⟩ := hx.resolve_left h0
  rcases le_or_gt (gridExponent q) (gridExponent x) with hfine | hcoarse
  · -- the number itself is on the grid at `q`
    obtain ⟨m, hm⟩ := exists_multiple_of_le hfine n
    have hxm : x = m * spacing q := by rw [spacing_eq hq, ← hm, ← spacing_eq h0, ← hn]
    exact ⟨m, hxm.le, hxm ▸ hle⟩
  · -- the greatest power of two that is at most `q` lies between
    have hlog : Int.log 2 |x| + 1 ≤ Int.log 2 |q| := by
      unfold gridExponent at hcoarse
      omega
    have hgrid : gridExponent q = Int.log 2 |q| - 52 := by
      unfold gridExponent at hcoarse ⊢
      omega
    refine ⟨2 ^ 52, ?_, ?_⟩
    · rw [two_pow_mul_spacing hq hgrid]
      calc x ≤ |x| := le_abs_self x
        _ ≤ 2 ^ (Int.log 2 |x| + 1) := by exact_mod_cast (Int.lt_zpow_succ_log_self one_lt_two |x|).le
        _ ≤ 2 ^ Int.log 2 |q| := zpow_le_zpow_right₀ one_le_two hlog
    · rw [two_pow_mul_spacing hq hgrid]
      calc (2 : Rat) ^ Int.log 2 |q| ≤ |q| := by exact_mod_cast Int.zpow_log_le_self one_lt_two (abs_pos.2 hq)
        _ = q := abs_of_pos (pos_of_log_lt hle hq hlog)

/-- between a value and zero there is nothing that is out of range -/
theorem abs_lt_of_le_of_nonpos {x v : Rat} (hx : x.abs < Rat.zpow 2 1024) (hle : x ≤ v) (hv : v ≤ 0) :
    v.abs < Rat.zpow 2 1024 := by
  rw [abs_eq, abs_of_nonpos (hle.trans hv)] at hx
  rw [abs_eq, abs_of_nonpos hv]
  exact lt_of_le_of_lt (neg_le_neg hle) hx

/-- **Rounding does not fall behind a rounded number.** -/
theorem le_round {x q : Rat} (hx : IsRounded (.finite x)) (hle : x ≤ q) : (Number.finite x).le (round q) = true := by
  by_cases h0 : q = 0
  · simp only [round, if_pos h0, le, decide_eq_true_eq]
    rwa [h0] at hle
  have hs := spacing_pos q
  have hcases := hx.finite_cases
  obtain ⟨m, hxm, hmq⟩ := exists_between (hcases.imp_right And.left) hle h0
  have hround : m ≤ roundEven (q / spacing q) := le_roundEven ((le_div_iff₀ hs).2 hmq)
  have hvalue : x ≤ roundEven (q / spacing q) * spacing q :=
    hxm.trans (mul_le_mul_of_nonneg_right (by exact_mod_cast hround) hs.le)
  simp only [round, if_neg h0]
  split_ifs with hlt
  · simpa [le] using hvalue
  · -- out of range it can only be above: below zero, `x` would be out of range too
    have hsign : ¬ q < 0 := by
      intro hneg
      have hnonpos : roundEven (q / spacing q) ≤ 0 :=
        roundEven_le (by simpa using div_nonpos_of_nonpos_of_nonneg hneg.le hs.le)
      have hvalue0 : (roundEven (q / spacing q) : Rat) * spacing q ≤ 0 :=
        mul_nonpos_of_nonpos_of_nonneg (by exact_mod_cast hnonpos) hs.le
      rcases hcases with hzero | ⟨-, hbound⟩
      · linarith
      · exact hlt (abs_lt_of_le_of_nonpos hbound hvalue hvalue0)
    simp [hsign, le]

theorem isRounded_add (x y : Number) : IsRounded (x.add y) := by
  cases x with
  | nan => trivial
  | infinite s =>
    cases y with
    | nan => trivial
    | infinite t =>
      simp only [add]
      split_ifs <;> trivial
    | finite b => trivial
  | finite a =>
    cases y with
    | nan => trivial
    | infinite t => trivial
    | finite b => exact isRounded_round (a + b)

/-! ## Order -/

/-- the order of numbers, with not-a-number at most itself -/
def AtMost (x y : Number) : Prop :=
  x.le y = true ∨ (x = .nan ∧ y = .nan)

theorem atMost_refl (x : Number) : AtMost x x := by
  cases x with
  | nan => exact Or.inr ⟨rfl, rfl⟩
  | infinite negative => cases negative <;> exact Or.inl rfl
  | finite q => exact Or.inl (by simp [le])

theorem le_iff {x y : Number} : x.le y = true ↔
    (x = .infinite true ∧ y ≠ .nan) ∨ (y = .infinite false ∧ x ≠ .nan) ∨
      ∃ a b, x = .finite a ∧ y = .finite b ∧ a ≤ b := by
  cases x with
  | nan => simp [le]
  | infinite s =>
    cases y with
    | nan => cases s <;> simp [le]
    | infinite t => cases s <;> cases t <;> simp [le]
    | finite b => cases s <;> simp [le]
  | finite a =>
    cases y with
    | nan => simp [le]
    | infinite t => cases t <;> simp [le]
    | finite b => simp [le]

theorem le_trans {x y z : Number} (hxy : x.le y = true) (hyz : y.le z = true) : x.le z = true := by
  rw [le_iff] at hxy hyz ⊢
  rcases hxy with ⟨hx, hy⟩ | ⟨rfl, hx⟩ | ⟨a, b, rfl, rfl, hab⟩
  · grind
  · grind
  · rcases hyz with ⟨hb, -⟩ | ⟨rfl, -⟩ | ⟨b', c, hb, rfl, hbc⟩
    · exact nomatch hb
    · exact Or.inr (Or.inl ⟨rfl, nofun⟩)
    · exact Or.inr (Or.inr ⟨a, c, rfl, rfl, hab.trans (Number.finite.inj hb ▸ hbc)⟩)

theorem atMost_trans {x y z : Number} (hxy : AtMost x y) (hyz : AtMost y z) : AtMost x z := by
  rcases hxy with hle | ⟨rfl, rfl⟩
  · rcases hyz with hle' | ⟨rfl, rfl⟩
    · exact Or.inl (le_trans hle hle')
    · exact Or.inl hle
  · exact hyz

/-- **Moving forward by a natural never falls behind.** -/
theorem atMost_add {x : Number} (hx : IsRounded x) (n : Nat) : AtMost x (x.add (.ofNat n)) := by
  cases x with
  | nan => exact Or.inr ⟨rfl, rfl⟩
  | infinite s => exact atMost_refl (.infinite s)
  | finite q => exact Or.inl (le_round hx (le_add_of_nonneg_right (by simp)))

end SliceParser.Number
