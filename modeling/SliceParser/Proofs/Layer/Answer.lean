/-
WHAT A LAYER ANSWERS, in terms of what the parser inside answers.

- `Traced.answer`: what a computation answers in a session. `Traced.left`: the session it leaves. A sequence of two goes
  on with the answer of the first, in the session that it leaves (`answer_bind`).
- A plain parser answers the same in every session (`answer_lift`).
- Tracing answers what the parser inside answers, whether it writes or not (`answer_traceTo`). A commit point changes
  the errors of that answer and nothing else (`answer_context`, `Outcome.committed`). What skips answers for the rest of
  its input (`answer_skip`).
-/
import SliceParser.Parser.Layer

namespace SliceParser

/-- an outcome as it leaves a commit point: every error is unrecoverable, and labelled by `f` -/
def Outcome.committed {V O E : Type} (f : E → E) : Outcome V O E → Outcome V O E
  | .success rest value => .success rest value
  | .failed (.incomplete needed) => .failed (.incomplete needed)
  | .failed (.recoverable e) => .failure (f e)
  | .failed (.unrecoverable e) => .failure (f e)

namespace Traced

variable {α β : Type}

/-- what a computation answers in a session -/
def answer (x : Traced α) (session : Session) : Except Fault α :=
  (x.run.run session).1

/-- the session that a computation leaves -/
def left (x : Traced α) (session : Session) : Session :=
  (x.run.run session).2

theorem answer_bind (x : Traced α) (f : α → Traced β) (session : Session) :
    (x >>= f).answer session = (x.answer session).bind fun a => (f a).answer (x.left session) := by
  unfold answer left
  rw [ExceptT.run_bind, StateT.run_bind]
  rcases x.run.run session with ⟨result, after⟩
  cases result with
  | error fault => rfl
  | ok a => rfl

/-- what only reads or changes the session cannot stop -/
theorem answer_bind_session (x : StateM Session α) (f : α → Traced β) (session : Session) :
    ((liftM x : Traced α) >>= f).answer session = (f (x.run session).1).answer (x.run session).2 := by
  rw [answer_bind]
  rfl

theorem answer_liftExcept (x : Except Fault α) (session : Session) :
    (liftExcept x : Traced α).answer session = x := by
  cases x with
  | error fault => rfl
  | ok a => rfl

/-! ## Layers -/

variable {V κ ω O E : Type}

theorem answer_lift (parser : Parser V O E) (input : V) (session : Session) :
    (Parser.lift parser input : Traced (Outcome V O E)).answer session = parser input :=
  answer_liftExcept _ _

theorem answer_context (label : Units) (errors : ErrorStrategy V E) (parser : ParserT Traced V O E) (input : V)
    (session : Session) :
    (Parser.context label errors parser input).answer session =
      ((parser input).answer session).map (Outcome.committed (errors.addContext input label)) := by
  unfold Parser.context
  rw [answer_bind]
  cases (parser input).answer session with
  | error fault => rfl
  | ok outcome =>
    cases outcome with
    | success rest value => rfl
    | failed err => cases err <;> rfl

theorem answer_traceTo [Shown V] [Shown O] (writer : Writer) (label : Units) (options : TraceOptions E)
    (parser : ParserT Traced V O E) (input : V) (session : Session) :
    (Parser.traceTo writer label options parser input).answer session = (parser input).answer session := by
  unfold Parser.traceTo
  rw [answer_bind]
  cases (parser input).answer session with
  | error fault => rfl
  | ok outcome =>
    -- whatever the settings say, the outcome is handed on at the end
    simp only [Except.bind]
    rw [answer_bind_session]
    split
    · rw [answer_bind_session, answer_bind_session, answer_bind_session]
      rfl
    · rfl

theorem answer_trace [Shown V] [Shown O] (label : Units) (options : TraceOptions E) (parser : ParserT Traced V O E)
    (input : V) (session : Session) :
    (Parser.trace label options parser input).answer session = (parser input).answer session :=
  answer_traceTo _ label options parser input session

theorem answer_skip [Position ω] [View V κ ω] (offset : Number) (parser : ParserT Traced V O E) (input : V)
    (session : Session) :
    (Parser.skip offset parser input).answer session =
      (View.takeSplit input offset).bind fun sides => (parser sides.1).answer session := by
  unfold Parser.skip
  rw [answer_bind, answer_liftExcept]
  cases View.takeSplit input offset with
  | error fault => rfl
  | ok sides => rfl

end Traced

end SliceParser
