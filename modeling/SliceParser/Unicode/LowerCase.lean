/-
LOWER CASE of a text, by the full mappings and without regard to a language.

- One code point, the capital I with a dot, becomes two; every other mapping is one to one (`LowerCase.mappings`).
- The capital sigma depends on what is around it: at the end of a word, that is with a cased letter before it and
  none behind it, it becomes the final sigma. Ignorable characters in between are looked through.
- Surrogates that stand alone stay as they are.
-/
import SliceParser.Unicode.Utf16
import SliceParser.Unicode.LowerCase.Table

namespace SliceParser.LowerCase

def Mapping.covers (m : Mapping) (code : Nat) : Bool :=
  m.first ≤ code && code ≤ m.last && (code - m.first) % m.step = 0

/-- the code points that `code` becomes where its surroundings do not matter -/
def lowerCode (code : Nat) : List Nat :=
  if code = 0x130 then [0x69, 0x307]
  else match mappings.find? (·.covers code) with
    | some m => [(code + m.shift).toNat]
    | none => [code]

def within (ranges : List (Nat × Nat)) (code : Nat) : Bool :=
  ranges.any fun (first, last) => first ≤ code && code ≤ last

def isCased (e : Element) : Bool :=
  within casedRanges e.code

def isIgnorable (e : Element) : Bool :=
  within ignorableRanges e.code

/-- past what is ignorable, the next element has a case -/
def meetsCased : List Element → Bool
  | [] => false
  | e :: rest => if isIgnorable e then meetsCased rest else isCased e

/-- lowers elements, given those before them with the nearest first -/
def lowerElements (before : List Element) : List Element → Units
  | [] => []
  | e :: rest =>
    let codes :=
      if e.code = 0x3A3 then
        if meetsCased before && !meetsCased rest then [0x3C2] else [0x3C3]
      else lowerCode e.code
    Units.ofCodes codes ++ lowerElements (e :: before) rest

def lower (us : Units) : Units :=
  lowerElements [] (segment us)

end SliceParser.LowerCase
