/-
TEXT AS 16-BIT UNITS: any sequence of units, well formed or not, and its reading as elements.

- `Element` is one code point: a pair of a high and a low surrogate, or a single unit (which may be a surrogate
  that has lost its other half).
- `segment` reads units as elements from the left, pairing greedily. Nothing is lost (`flatMap_units_segment`).
-/

namespace SliceParser

abbrev Units := List UInt16

def isHighSurrogate (u : UInt16) : Bool :=
  0xD800 ≤ u && u ≤ 0xDBFF

def isLowSurrogate (u : UInt16) : Bool :=
  0xDC00 ≤ u && u ≤ 0xDFFF

/-- one element of a text: a code point, or a surrogate that stands alone -/
inductive Element where
  | unit (u : UInt16)
  | pair (high low : UInt16)
  deriving DecidableEq

namespace Element

def units : Element → Units
  | .unit u => [u]
  | .pair high low => [high, low]

/-- the code point; of a surrogate that stands alone, its unit -/
def code : Element → Nat
  | .unit u => u.toNat
  | .pair high low => 0x10000 + (high.toNat - 0xD800) * 0x400 + (low.toNat - 0xDC00)

def ofCode (code : Nat) : Element :=
  if code < 0x10000 then .unit (UInt16.ofNat code)
  else .pair (UInt16.ofNat (0xD800 + (code - 0x10000) / 0x400)) (UInt16.ofNat (0xDC00 + (code - 0x10000) % 0x400))

def isLone : Element → Bool
  | .unit u => isHighSurrogate u || isLowSurrogate u
  | .pair _ _ => false

theorem units_ne_nil (e : Element) : e.units ≠ [] := by
  cases e <;> simp [units]

end Element

/-- a high surrogate and a low one directly behind it are one element; every other unit is one by itself -/
def segment : Units → List Element
  | [] => []
  | [u] => [.unit u]
  | u :: w :: rest =>
    if isHighSurrogate u && isLowSurrogate w then .pair u w :: segment rest
    else .unit u :: segment (w :: rest)

@[simp] theorem flatMap_units_segment (us : Units) : (segment us).flatMap Element.units = us := by
  fun_induction segment us with
  | case1 => rfl
  | case2 u => rfl
  | case3 u w rest _ ih => simp [Element.units, ih]
  | case4 u w rest _ ih => simp [Element.units, ih]

namespace Units

def ofCodes (codes : List Nat) : Units :=
  codes.flatMap fun code => (Element.ofCode code).units

def ofString (s : String) : Units :=
  ofCodes (s.toList.map Char.toNat)

/-- texts put together, with `separator` between neighbours -/
def joinWith (separator : Units) : List Units → Units
  | [] => []
  | [us] => us
  | us :: rest => us ++ separator ++ joinWith separator rest

end Units

end SliceParser
