/-
THE ENVIRONMENT as a layer of configuration: variables whose name begins with `mark` set the path that the rest
of the name spells.

- The rest of the name is lowered, two underscores or one stand for a dot, and dots separate the names of the path.
- The values 1 and true are true, 0, false and the empty value are false, a run of digits is a number, and anything
  else is text.
-/
import SliceParser.Config.Value
import SliceParser.Unicode.LowerCase

namespace SliceParser.Config

/-- variables with their values, each name once -/
abbrev Environment := List (Units × Units)

/-- how the names of our variables begin -/
def mark : Units := .ofString "SPANCOMB_"

/-- underscores as dots, from the left, two of them as one -/
def dotted : Units → Units
  | [] => []
  | [u] => if u = 0x5F then [0x2E] else [u]
  | u :: w :: rest =>
    if u = 0x5F then
      if w = 0x5F then 0x2E :: dotted rest else 0x2E :: dotted (w :: rest)
    else u :: dotted (w :: rest)

/-- the path that a variable sets, if it is one of ours -/
def variablePath? (name : Units) : Option Path :=
  if mark.isPrefixOf name then
    some (splitPath (dotted (LowerCase.lower (name.drop mark.length))))
  else none

def isDigit (u : UInt16) : Bool := 0x30 ≤ u && u ≤ 0x39

/-- the natural that a run of digits spells -/
def digitsValue (us : Units) : Nat :=
  us.foldl (fun n u => n * 10 + (u.toNat - 0x30)) 0

/-- the value that the text of a variable stands for -/
def variableValue (text : Units) : Value :=
  if text = .ofString "1" ∨ text = .ofString "true" then .bool true
  else if text = .ofString "0" ∨ text = .ofString "false" ∨ text = [] then .bool false
  else if text.all isDigit then .number (.round (digitsValue text : Int))
  else .text text

/-- writes a variable into a record, if it is one of ours -/
def setVariable (record : Record) (var : Units × Units) : Record :=
  match variablePath? var.1 with
  | some path => record.setPath (variableValue var.2) path
  | none => record

/-- the layer that the variables make, later ones written over earlier ones -/
def Environment.record (env : Environment) : Record :=
  env.foldl setVariable []

end SliceParser.Config
