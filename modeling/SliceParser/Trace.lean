/-
TRACING: parsers that write a line for every call while tracing is on, and leave the outcome as it is.

- A traced parser runs in a session, which holds the settings and the lines written so far. A fault stops the parser
  and keeps the session.
- The inner parser runs first, so inner lines come before outer ones. Only a parser that has no setting of its own
  reads whether tracing is on, and only one that writes reads the width.
- A writer takes the line. It may change the settings, and the layers outside see that.
- A line shows a success by the quoted texts of the rest and of the value, cut to the width, and a failure by its
  description. A value may be anything that has a text; a view has one.

What a program hands in here, the text of an error or of a value and the writer, is a total function. One that throws is
left out: the fault would replace the outcome.
-/
import SliceParser.Config.Settings
import SliceParser.Parser.Basic

namespace SliceParser

structure Session where
  settings : Config.Settings
  /-- the lines written so far, the oldest first -/
  lines : List Units

/-- a computation that may stop with a fault and keeps its session then -/
abbrev Traced := ExceptT Fault (StateM Session)

namespace Session

/-- an answer from the settings; reading fixes them -/
def read {α : Type} (answer : Config.Settings → α) : StateM Session α := do
  let session ← get
  set { session with settings := session.settings.fixed }
  return answer session.settings

def change (f : Config.Settings → Config.Settings) : StateM Session Unit :=
  modify fun session => { session with settings := f session.settings }

def write (line : Units) : StateM Session Unit :=
  modify fun session => { session with lines := session.lines ++ [line] }

/-- a session with nothing written and nothing read -/
def initial (environment : Config.Environment) : Session := ⟨.initial environment, []⟩

end Session

/-! ## Traced parsers -/

/-- values that a line can show -/
class Shown (O : Type) where
  text : O → Units

instance {V κ ω : Type} [Position ω] [View V κ ω] : Shown V := ⟨View.text⟩

/-- what a writer makes of the settings when it takes a line -/
abbrev Writer := Units → Config.Settings → Config.Settings

structure TraceOptions (E : Type) where
  /-- on or off, whatever the settings say -/
  enabled : Option Bool := none
  showError : E → Units

namespace Trace

/-- a text in quotes, cut to `width` code points -/
def preview (text : Units) (width : Nat) : Units :=
  let elements := segment text
  if width < elements.length then
    Json.quote ((elements.take width).flatMap Element.units ++ .ofString "…")
  else Json.quote text

variable {V O E : Type} [Shown V] [Shown O]

def line (label : Units) (width : Nat) (showError : E → Units) : Outcome V O E → Units
  | .success rest value =>
    label ++ .ofString ": ok rest=" ++ preview (Shown.text rest) width ++
      .ofString " value=" ++ preview (Shown.text value) width
  | .failed err => label ++ .ofString ": " ++ err.describe showError

def isEnabled (options : TraceOptions E) : StateM Session Bool :=
  match options.enabled with
  | some enabled => return enabled
  | none => Session.read (·.debugEnabled)

end Trace

variable {V O E : Type} [Shown V] [Shown O]

def Parser.traceTo (writer : Writer) (label : Units) (options : TraceOptions E) (parser : ParserT Traced V O E) :
    ParserT Traced V O E := fun input => do
  let outcome ← parser input
  if ← Trace.isEnabled options then
    let width ← (Session.read (·.traceWidth) : StateM Session Nat)
    let line := Trace.line label width options.showError outcome
    Session.write line
    Session.change (writer line)
  return outcome

/-- with a writer that only takes the lines -/
def Parser.trace (label : Units) (options : TraceOptions E) (parser : ParserT Traced V O E) : ParserT Traced V O E :=
  traceTo (fun _ settings => settings) label options parser

end SliceParser
