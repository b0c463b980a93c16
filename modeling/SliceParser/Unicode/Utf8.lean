/-
UTF-8 both ways, for texts and octets that need not be well formed.

- `Utf8.encode` writes a surrogate that stands alone as the replacement character.
- `Utf8.decode` drops one leading byte order mark, and reads each maximal ill-formed part as one replacement
  character. It is a machine of two kinds of state: between characters, or inside one with the bounds that the next
  octet has to keep.
-/
import SliceParser.Unicode.Utf16

namespace SliceParser.Utf8

def replacement : Nat := 0xFFFD

/-! ## Writing -/

def encodeCode (code : Nat) : List UInt8 :=
  if code < 0x80 then [UInt8.ofNat code]
  else if code < 0x800 then
    [UInt8.ofNat (0xC0 + code / 0x40), UInt8.ofNat (0x80 + code % 0x40)]
  else if code < 0x10000 then
    [UInt8.ofNat (0xE0 + code / 0x1000), UInt8.ofNat (0x80 + code / 0x40 % 0x40), UInt8.ofNat (0x80 + code % 0x40)]
  else
    [UInt8.ofNat (0xF0 + code / 0x40000), UInt8.ofNat (0x80 + code / 0x1000 % 0x40),
      UInt8.ofNat (0x80 + code / 0x40 % 0x40), UInt8.ofNat (0x80 + code % 0x40)]

def encodeElement (e : Element) : List UInt8 :=
  encodeCode (if e.isLone then replacement else e.code)

def encode (us : Units) : List UInt8 :=
  (segment us).flatMap encodeElement

/-! ## Reading -/

/-- where a reader stands: between characters, or inside one whose next octet has to lie in `[low, high]` -/
inductive State where
  | between
  | inside (code remaining : Nat) (low high : UInt8)
  deriving DecidableEq

/-- the first octet of a character; an octet that starts none is replaced -/
def start (b : UInt8) : List Nat × State :=
  if b < 0x80 then ([b.toNat], .between)
  else if b < 0xC2 then ([replacement], .between)
  else if b < 0xE0 then ([], .inside (b.toNat - 0xC0) 1 0x80 0xBF)
  else if b < 0xF0 then
    ([], .inside (b.toNat - 0xE0) 2 (if b = 0xE0 then 0xA0 else 0x80) (if b = 0xED then 0x9F else 0xBF))
  else if b < 0xF5 then
    ([], .inside (b.toNat - 0xF0) 3 (if b = 0xF0 then 0x90 else 0x80) (if b = 0xF4 then 0x8F else 0xBF))
  else ([replacement], .between)

/-- the code points that an octet completes, and where it leaves the reader -/
def step : State → UInt8 → List Nat × State
  | .between, b => start b
  | .inside code remaining low high, b =>
    if low ≤ b && b ≤ high then
      let code := code * 0x40 + (b.toNat - 0x80)
      if remaining ≤ 1 then ([code], .between) else ([], .inside code (remaining - 1) 0x80 0xBF)
    else
      let (codes, next) := start b
      (replacement :: codes, next)

def decodeFrom : State → List UInt8 → List Nat
  | .between, [] => []
  | .inside _ _ _ _, [] => [replacement]
  | s, b :: rest =>
    let (codes, next) := step s b
    codes ++ decodeFrom next rest

def dropMark : List UInt8 → List UInt8
  | 0xEF :: 0xBB :: 0xBF :: rest => rest
  | octets => octets

def decode (octets : List UInt8) : Units :=
  Units.ofCodes (decodeFrom .between (dropMark octets))

end SliceParser.Utf8
