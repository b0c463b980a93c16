/-
QUOTED TEXT in JSON: a quote, each element escaped or as it is, and a quote.

A quote and a backslash are escaped with a backslash, five controls by a letter, the other controls and every
surrogate that stands alone by four hexadecimal digits. All else stands for itself.
-/
import SliceParser.Unicode.Utf16

namespace SliceParser.Json

def hexDigit (n : Nat) : UInt16 :=
  UInt16.ofNat (if n < 10 then 0x30 + n else 0x61 + (n - 10))

/-- a backslash, the letter u and the four hexadecimal digits of a unit -/
def escapeUnit (u : UInt16) : Units :=
  let n := u.toNat
  [0x5C, 0x75, hexDigit (n / 0x1000), hexDigit (n / 0x100 % 0x10), hexDigit (n / 0x10 % 0x10), hexDigit (n % 0x10)]

def escape : Element → Units
  | .unit 0x22 => [0x5C, 0x22]
  | .unit 0x5C => [0x5C, 0x5C]
  | .unit 0x08 => [0x5C, 0x62]
  | .unit 0x0C => [0x5C, 0x66]
  | .unit 0x0A => [0x5C, 0x6E]
  | .unit 0x0D => [0x5C, 0x72]
  | .unit 0x09 => [0x5C, 0x74]
  | e => if e.isLone || e.code < 0x20 then e.units.flatMap escapeUnit else e.units

def quote (us : Units) : Units :=
  0x22 :: (segment us).flatMap escape ++ [0x22]

/-- a compact list of members that are JSON already -/
def list (members : List Units) : Units :=
  0x5B :: Units.joinWith [0x2C] members ++ [0x5D]

/-- a compact object of values that are JSON already -/
def object (fields : List (String × Units)) : Units :=
  0x7B :: Units.joinWith [0x2C] (fields.map fun (name, value) => quote (Units.ofString name) ++ 0x3A :: value) ++ [0x7D]

end SliceParser.Json
