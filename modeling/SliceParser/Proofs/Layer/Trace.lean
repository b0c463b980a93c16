/-
WHAT A TRACED LAYER LEAVES in its session.

- `Trace.trail`: what the layer itself does once the parser inside has an outcome. Switched off it does nothing.
  Otherwise it reads the settings, and writes one line if it is switched on, or has no switch and the settings are on.
- `Trace.trailTo`: the same with a writer that may change the settings when it takes the line.
- `left_traceTo`: **a traced layer leaves what the parser inside left, with its own trail behind it.**

A trail is left on outcomes only. The texts of errors and of values and the writer are total functions, so a layer is
never stopped by its own line.
-/
import SliceParser.Proofs.Layer.Answer

namespace SliceParser

variable {V O E : Type} [Shown V] [Shown O]

/-- the lines that a traced layer writes, given what it reads from the settings -/
def Trace.written (label : Units) (options : TraceOptions E) (outcome : Outcome V O E) (debug : Bool) (width : Nat) :
    List Units :=
  if options.enabled.getD debug then [Trace.line label width options.showError outcome] else []

/-- what a traced layer makes of the session that the parser inside left with an outcome -/
def Trace.trail (label : Units) (options : TraceOptions E) (outcome : Outcome V O E) (session : Session) : Session :=
  if options.enabled = some false then session
  else ⟨session.settings.fixed, session.lines ++
    Trace.written label options outcome session.settings.debugEnabled session.settings.traceWidth⟩

/-- the same with a writer that may change the settings when it takes a line -/
def Trace.trailTo (writer : Writer) (label : Units) (options : TraceOptions E) (outcome : Outcome V O E)
    (session : Session) : Session :=
  let after := trail label options outcome session
  let lines := written label options outcome session.settings.debugEnabled session.settings.traceWidth
  { after with settings := lines.foldl (fun settings line => writer line settings) after.settings }

theorem Trace.trailTo_unchanged (label : Units) (options : TraceOptions E) (outcome : Outcome V O E)
    (session : Session) :
    Trace.trailTo (fun _ settings => settings) label options outcome session =
      Trace.trail label options outcome session := by
  have hfold : ∀ (lines : List Units) (settings : Config.Settings),
      lines.foldl (fun settings _ => settings) settings = settings := by
    intro lines settings
    induction lines with
    | nil => rfl
    | cons line lines ih => exact ih
  rw [trailTo, hfold]

namespace Traced

variable {α β : Type}

theorem left_bind_ok {x : Traced α} {session : Session} {a : α} (h : x.answer session = .ok a) (f : α → Traced β) :
    (x >>= f).left session = (f a).left (x.left session) := by
  unfold answer at h
  unfold left
  rw [ExceptT.run_bind, StateT.run_bind]
  rcases hrun : x.run.run session with ⟨result, after⟩
  rw [hrun] at h
  obtain rfl : result = .ok a := h
  rfl

/-- what only reads or changes the session is done before the rest -/
theorem left_bind_session (x : StateM Session α) (f : α → Traced β) (session : Session) :
    ((liftM x : Traced α) >>= f).left session = (f (x.run session).1).left (x.run session).2 :=
  left_bind_ok rfl f

variable {label : Units} {options : TraceOptions E} {parser : ParserT Traced V O E} {input : V} {session : Session}

/-- **A traced layer leaves what the parser inside left, with its own trail behind it.** -/
theorem left_traceTo {writer : Writer} {outcome : Outcome V O E} (h : (parser input).answer session = .ok outcome) :
    (Parser.traceTo writer label options parser input).left session =
      Trace.trailTo writer label options outcome ((parser input).left session) := by
  unfold Parser.traceTo
  rw [left_bind_ok h, left_bind_session]
  obtain ⟨enabled, showError⟩ := options
  cases enabled with
  | some enabled =>
    cases enabled with
    | false => rfl
    | true => rfl
  | none =>
    cases hdebug : ((parser input).left session).settings.debugEnabled with
    | false =>
      have hoff : ((Trace.isEnabled ⟨none, showError⟩).run ((parser input).left session)).1 = false := hdebug
      rw [if_neg (by rw [hoff]; decide)]
      simp only [Trace.trailTo, Trace.trail, Trace.written, hdebug, reduceCtorEq, if_false, Option.getD_none,
        Bool.false_eq_true, List.append_nil, List.foldl_nil]
      rfl
    | true =>
      have hon : ((Trace.isEnabled ⟨none, showError⟩).run ((parser input).left session)).1 = true := hdebug
      rw [if_pos hon]
      simp only [Trace.trailTo, Trace.trail, Trace.written, hdebug]
      rfl

theorem left_trace {outcome : Outcome V O E} (h : (parser input).answer session = .ok outcome) :
    (Parser.trace label options parser input).left session =
      Trace.trail label options outcome ((parser input).left session) :=
  (left_traceTo h).trans (Trace.trailTo_unchanged label options outcome _)

end Traced

end SliceParser
