/-
DECIMAL TEXT of a number: the fewest digits that read back to it, and of those the nearest to it.

- `Number.shortest` searches the decimal grids of 1, 2, … 17 digits; on each grid only the two neighbours of the
  value can read back.
- `Number.toText` lays the digits out: positional up to 21 digits before the point and down to six zeros behind it,
  with an exponent beyond.
-/
import SliceParser.Number.Basic

namespace SliceParser.Number

/-- the exponent of the greatest power of ten that is at most a positive `q` -/
def floorLog10 (q : Rat) : Int :=
  if 1 ≤ q then ((Nat.toDigits 10 q.floor.toNat).length : Int) - 1
  else -((Nat.toDigits 10 ((1 / q).ceil.toNat - 1)).length : Int)

/-- a decimal: `digits` times ten to the `exponent` -/
structure Decimal where
  digits : Nat
  exponent : Int
  deriving DecidableEq

def Decimal.value (d : Decimal) : Rat :=
  (d.digits : Int) * Rat.zpow 10 d.exponent

/-- the nearest of the at most two neighbours of a positive `q` on the grid of `count` digits that read back to `q` -/
def onGrid? (q : Rat) (count : Nat) : Option Decimal :=
  let exponent := floorLog10 q - count + 1
  let below := (q / Rat.zpow 10 exponent).floor.toNat
  let lower : Decimal := ⟨below, exponent⟩
  let upper : Decimal := ⟨below + 1, exponent⟩
  let readsBack (d : Decimal) : Bool := round d.value = .finite q
  match readsBack lower, readsBack upper with
  | true, true =>
    let past := q - lower.value
    let short := upper.value - q
    if past < short ∨ past = short ∧ below % 2 = 0 then some lower else some upper
  | true, false => some lower
  | false, true => some upper
  | false, false => none

/-- the shortest decimal that reads back to a positive binary64 value `q`; 17 digits are always enough -/
def shortest (q : Rat) : Decimal :=
  ((List.range 17).findSome? fun n => onGrid? q (n + 1)).getD ⟨0, 0⟩

/-- the digits without the zeros they end in -/
def Decimal.significant (d : Decimal) : List Char :=
  ((Nat.toDigits 10 d.digits).reverse.dropWhile (· = '0')).reverse

/-- how many digits stand before the point; negative when zeros follow it -/
def Decimal.point (d : Decimal) : Int :=
  (Nat.toDigits 10 d.digits).length + d.exponent

def Decimal.layout (d : Decimal) : List Char :=
  let digits := d.significant
  let point := d.point
  if 0 < point ∧ point ≤ 21 then
    if digits.length ≤ point then
      digits ++ List.replicate (point.toNat - digits.length) '0'
    else
      digits.take point.toNat ++ '.' :: digits.drop point.toNat
  else if -6 < point ∧ point ≤ 0 then
    '0' :: '.' :: (List.replicate (-point).toNat '0' ++ digits)
  else
    let power := point - 1
    let mantissa := match digits with
      | first :: second :: rest => first :: '.' :: second :: rest
      | digits => digits
    mantissa ++ 'e' :: (if power < 0 then '-' else '+') :: Nat.toDigits 10 power.natAbs

def toText : Number → String
  | .nan => "NaN"
  | .infinite true => "-Infinity"
  | .infinite false => "Infinity"
  | .finite q =>
    if q = 0 then "0"
    else if q < 0 then String.ofList ('-' :: (shortest (-q)).layout)
    else String.ofList (shortest q).layout

end SliceParser.Number
