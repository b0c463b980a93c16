/-
NUMBERS: binary64 values as exact rationals, and the operations that counts and offsets need.

- `Number` is not-a-number, one of the two infinities, or a finite value. The two zeros are one value, because
  nothing here tells them apart.
- `Number.round` takes a rational to the nearest binary64 value, a tie going to the even neighbour;
  `Number.add` is the exact sum, rounded.
- `Number.toNat?` is the one gate from a number to a count or an offset: it answers only on the naturals
  (`toNat?_ofNat`, `toNat?_eq_some`).
-/

namespace SliceParser

/-- A binary64 number, with the two zeros taken as one. -/
inductive Number where
  | nan
  | infinite (negative : Bool)
  | finite (value : Rat)
  deriving DecidableEq

namespace Number

/-! ## Exact values -/

def ofInt (i : Int) : Number := .finite i

def ofNat (n : Nat) : Number := .finite (n : Int)

/-- the integer a number is, if it is one -/
def toInt? : Number → Option Int
  | .finite q => if q.den = 1 then some q.num else none
  | _ => none

/-- the natural a number is, if it is one -/
def toNat? (x : Number) : Option Nat :=
  match x.toInt? with
  | some i => if 0 ≤ i then some i.toNat else none
  | none => none

@[simp] theorem toInt?_ofInt (i : Int) : (ofInt i).toInt? = some i := by
  simp [ofInt, toInt?]

@[simp] theorem toNat?_ofNat (n : Nat) : (ofNat n).toNat? = some n := by
  simp [ofNat, toNat?, toInt?]

theorem toInt?_eq_some {x : Number} {i : Int} (h : x.toInt? = some i) : x = ofInt i := by
  cases x with
  | finite q =>
    simp only [toInt?] at h
    split at h
    · rename_i hd
      simp only [Option.some.injEq] at h
      subst h
      simp only [ofInt, Number.finite.injEq]
      exact Rat.ext (by simp) (by simpa using hd)
    · exact absurd h (by simp)
  | nan => exact absurd h (by simp [toInt?])
  | infinite s => exact absurd h (by simp [toInt?])

theorem toNat?_eq_some {x : Number} {n : Nat} (h : x.toNat? = some n) : x = ofNat n := by
  simp only [toNat?] at h
  split at h
  · rename_i i hi
    split at h
    · rename_i hpos
      simp only [Option.some.injEq] at h
      rw [toInt?_eq_some hi, ofInt, ofNat, ← h, Int.toNat_of_nonneg hpos]
    · exact absurd h (by simp)
  · exact absurd h (by simp)

/-! ## Order and equality as numbers are compared: not-a-number is neither below nor equal to anything -/

def le : Number → Number → Bool
  | .nan, _ => false
  | _, .nan => false
  | .infinite true, _ => true
  | _, .infinite false => true
  | .finite a, .finite b => a ≤ b
  | _, _ => false

@[simp] theorem ofNat_le_ofNat (m n : Nat) : (ofNat m).le (ofNat n) = decide (m ≤ n) := by
  simp only [ofNat, le, Rat.intCast_le_intCast, Int.ofNat_le]

def same (x y : Number) : Bool :=
  x ≠ .nan && x = y

@[simp] theorem ofNat_same_ofNat (m n : Nat) : (ofNat m).same (ofNat n) = decide (m = n) := by
  simp only [ofNat, same, Rat.intCast_inj, Number.finite.injEq, ne_eq, reduceCtorEq, not_false_eq_true, decide_true,
    Bool.true_and, Int.ofNat_inj]

/-! ## Rounding -/

/-- the exponent of the greatest power of two that is at most a positive `q` -/
def floorLog2 (q : Rat) : Int :=
  if 1 ≤ q then (Nat.log2 q.floor.toNat : Int)
  else -((Nat.log2 ((1 / q).ceil.toNat - 1) : Int) + 1)

/-- the nearest integer, a half going to the even neighbour -/
def roundEven (q : Rat) : Int :=
  let below := q.floor
  let past := q - below
  if past < 1 / 2 then below
  else if 1 / 2 < past then below + 1
  else if below % 2 = 0 then below else below + 1

/-- the distance between neighbouring values around `q`: 53 digits, but never finer than the least subnormal -/
def spacing (q : Rat) : Rat :=
  Rat.zpow 2 (max (floorLog2 q.abs - 52) (-1074))

/-- the nearest binary64 value; at and beyond 2 to the 1024 it is an infinity -/
def round (q : Rat) : Number :=
  if q = 0 then .finite 0
  else
    let value := (roundEven (q / spacing q) : Rat) * spacing q
    if value.abs < Rat.zpow 2 1024 then .finite value else .infinite (q < 0)

def add : Number → Number → Number
  | .nan, _ => .nan
  | _, .nan => .nan
  | .infinite s, .infinite t => if s = t then .infinite s else .nan
  | .infinite s, .finite _ => .infinite s
  | .finite _, .infinite t => .infinite t
  | .finite a, .finite b => round (a + b)

/-- the octet a number stands for: its fraction is dropped and the rest taken modulo 256; without a finite value, 0 -/
def toOctet : Number → UInt8
  | .finite q =>
    let whole := if q < 0 then -((-q).floor) else q.floor
    UInt8.ofNat (whole % 256).toNat
  | _ => 0

end Number

end SliceParser
