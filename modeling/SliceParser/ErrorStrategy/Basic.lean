/-
ERROR STRATEGIES: how failures become error values. Parsers never build an error themselves; they ask the strategy
they were given, so that changing the strategy changes nothing but the errors.

- A strategy has to say what an error of a kind is, and what it becomes when an outer parser fails around it. The
  other members have defaults: a missing character is an error of kind `char`, of two alternatives the second error
  stays, and labels are ignored.
- `ErrorStrategy.simple` keeps where and why the innermost parser failed, `ErrorStrategy.verbose` keeps the trail
  from there outwards, `ErrorStrategy.unit` keeps nothing.
- `JsonText` is the JSON of an error value, used where errors are shown or compared as text.
-/
import SliceParser.ErrorKind
import SliceParser.Json.Quoted
import SliceParser.View.Basic

namespace SliceParser

structure ErrorStrategy (V E : Type) where
  fromKind : V → ErrorKind → E
  /-- an outer parser of this kind failed around an error -/
  append : V → ErrorKind → E → E
  /-- a character was expected and not found -/
  fromChar : V → Units → E := fun input _ => fromKind input .char
  /-- one error for two alternatives that failed -/
  either : E → E → E := fun _ second => second
  addContext : V → Units → E → E := fun _ _ inner => inner

/-! ## Strategies -/

/-- where a parser failed and why -/
structure SimpleError (V : Type) where
  input : V
  kind : ErrorKind
  deriving DecidableEq

/-- one step of the way out of a failure -/
inductive VerboseEntry where
  | kind (kind : ErrorKind)
  | char (expected : Units)
  | context (label : Units)
  deriving DecidableEq

/-- the way out of a failure, from the innermost step to the outermost -/
structure VerboseError (V : Type) where
  entries : List (V × VerboseEntry)
  deriving DecidableEq

def VerboseError.push {V : Type} (error : VerboseError V) (input : V) (entry : VerboseEntry) : VerboseError V :=
  ⟨error.entries ++ [(input, entry)]⟩

namespace ErrorStrategy

variable {V : Type}

def simple : ErrorStrategy V (SimpleError V) where
  fromKind input kind := ⟨input, kind⟩
  append _ _ inner := inner

def verbose : ErrorStrategy V (VerboseError V) where
  fromKind input kind := ⟨[(input, .kind kind)]⟩
  append input kind inner := inner.push input (.kind kind)
  fromChar input expected := ⟨[(input, .char expected)]⟩
  addContext input label inner := inner.push input (.context label)

def unit : ErrorStrategy V Unit where
  fromKind _ _ := ()
  append _ _ _ := ()

end ErrorStrategy

/-! ## Errors as JSON -/

class JsonText (E : Type) where
  jsonText : E → Units

export JsonText (jsonText)

def ErrorKind.jsonText (kind : ErrorKind) : Units := Json.quote (.ofString kind.name)

def VerboseEntry.jsonText : VerboseEntry → Units
  | .kind k => Json.object [("_tag", Json.quote (.ofString "Kind")), ("kind", k.jsonText)]
  | .char expected => Json.object [("_tag", Json.quote (.ofString "Char")), ("char", Json.quote expected)]
  | .context label => Json.object [("_tag", Json.quote (.ofString "Context")), ("label", Json.quote label)]

section

variable {V κ ω : Type} [Position ω] [View V κ ω]

def View.jsonText (v : V) : Units := Json.quote (View.text v)

instance : JsonText (SimpleError V) where
  jsonText error := Json.object [("input", View.jsonText error.input), ("kind", error.kind.jsonText)]

instance : JsonText (VerboseError V) where
  jsonText error := Json.object
    [("errors", Json.list (error.entries.map fun (input, entry) => Json.list [View.jsonText input, entry.jsonText]))]

end

/-- an error without content has no JSON; it shows as undefined -/
instance : JsonText Unit where
  jsonText _ := .ofString "undefined"

end SliceParser
