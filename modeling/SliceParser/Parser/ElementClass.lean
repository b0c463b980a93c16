/-
ELEMENT CLASSES: predicates on elements, by their code point, octet or lone unit.
-/
import SliceParser.View.Basic

namespace SliceParser.ElementClass

def between (low high code : Nat) : Bool := low ≤ code && code ≤ high

def isUpper (code : Nat) : Bool := between 0x41 0x5A code

def isAlpha (code : Nat) : Bool := isUpper code || between 0x61 0x7A code

/-- beyond the code points that one unit can hold -/
def isAstral (code : Nat) : Bool := decide (0xFFFF < code)

end SliceParser.ElementClass
