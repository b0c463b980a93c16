/-
READS of settings, and what they answer in any run of a program.

- `Question`: what may be asked of settings. `answer`: what a record answers, by the value that is found at a path of it.
  Settings answer what is found in their record (`ask_eq`).
- `Reached`: the settings that a program comes to, with the history that led there. It starts by a reset, and then
  replaces the environment, sets values, resets, asks questions, and calls traced parsers, in any order. Whatever the
  parser inside did before it had an outcome is part of the history; the traced layer itself reads, unless it is
  switched off.
- `reads_answer_from_layers`: **every read answers from the layers of the history**, the traced layer included. The
  first read since the last change takes the environment as it stands then; one that is replaced later is not seen
  before the next change. A read makes no difference to later ones but that it fixes the environment, and a traced layer
  that is switched off does not even that.
-/
import SliceParser.Proofs.Config.History
import SliceParser.Proofs.Config.Variables
import SliceParser.Proofs.Layer.Trace
import SliceParser.Parser.Primitive
import SliceParser.View.Text

namespace SliceParser.Config

/-! ## Questions -/

def Value.isTrue : Value → Bool
  | .bool value => value
  | _ => false

/-- the positive integer that a value is, if it is one -/
def Value.positive? : Value → Option Nat
  | .number value => value.toNat?.filter (0 < ·)
  | _ => none

/-- what may be asked of settings, with the type of the answer -/
inductive Question : Type → Type where
  | get (path : Units) : Question (Option Value)
  | has (path : Units) : Question Bool
  | all : Question Record
  | debugEnabled : Question Bool
  | traceWidth : Question Nat

namespace Question

variable {α : Type}

def ask : Question α → Settings → α
  | .get path, s => s.get? path
  | .has path, s => s.has path
  | .all, s => s.record
  | .debugEnabled, s => s.debugEnabled
  | .traceWidth, s => s.traceWidth

/-- the answer that the value found at a path gives: itself, whether it counts as set, whether it is true, or the
positive integer that it is, else 16; or all of the record -/
def answer : Question α → Record → α
  | .get path, record => Value.getPath? (splitPath path) (.record record)
  | .has path, record => (Value.getPath? (splitPath path) (.record record)).any Value.isTruthy
  | .all, record => record
  | .debugEnabled, record => (Value.getPath? (splitPath (.ofString "debug")) (.record record)).any Value.isTrue
  | .traceWidth, record =>
    ((Value.getPath? (splitPath (.ofString "trace.width")) (.record record)).bind Value.positive?).getD 16

/-- **Settings answer what is found in their record.** -/
theorem ask_eq (question : Question α) (s : Settings) : question.ask s = question.answer s.record := by
  cases question with
  | get path => rfl
  | has path =>
    rw [ask, answer, Settings.has, Settings.get?, Settings.getPath?]
    cases Value.getPath? (splitPath path) (.record s.record) <;> rfl
  | all => rfl
  | debugEnabled =>
    have hpath : splitPath (.ofString "debug") = [.ofString "debug"] := by decide +kernel
    rw [ask, answer, hpath, Settings.debugEnabled, Settings.getPath?]
    cases Value.getPath? [.ofString "debug"] (.record s.record) with
    | none => rfl
    | some value =>
      cases value with
      | bool value => cases value <;> rfl
      | _ => rfl
  | traceWidth =>
    have hpath : splitPath (.ofString "trace.width") = [.ofString "trace", .ofString "width"] := by decide +kernel
    rw [ask, answer, hpath, Settings.traceWidth, Settings.getPath?]
    cases Value.getPath? [.ofString "trace", .ofString "width"] (.record s.record) with
    | none => rfl
    | some value =>
      cases value with
      | number width =>
        rw [Option.bind_some, Value.positive?]
        cases hwidth : width.toNat? with
        | none => simp [hwidth]
        | some n => cases n <;> simp [hwidth, Option.filter]
      | _ => rfl

end Question

/-! ## Runs -/

/-- the settings that a program comes to from `start`, which it resets first -/
inductive Reached (start : Settings) : History → Settings → Prop
  | start : Reached start [] start.reset
  | replace {history : History} {session : Session} (environment : Environment) :
      Reached start history session.settings →
      Reached start (history ++ [.replace environment])
        ((Session.change (Settings.setEnvironment environment)).run session).2.settings
  | set {history : History} {session : Session} (values : Record) : Reached start history session.settings →
      Reached start (history ++ [.set values]) ((Session.change (Settings.set values)).run session).2.settings
  | reset {history : History} {session : Session} : Reached start history session.settings →
      Reached start (history ++ [.reset]) ((Session.change Settings.reset).run session).2.settings
  | ask {history : History} {session : Session} {α : Type} (question : Question α) :
      Reached start history session.settings →
      Reached start (history ++ [.read]) ((Session.read question.ask).run session).2.settings
  /-- a traced layer that is not switched off, around a parser that had an outcome -/
  | call {V κ ω E : Type} [Position ω] [View V κ ω] {history : History} {before : Session} (label : Units)
      (options : TraceOptions E) (parser : ParserT Traced V V E) (input : V) (outcome : Outcome V V E) :
      options.enabled ≠ some false → (parser input).answer before = .ok outcome →
      Reached start history ((parser input).left before).settings →
      Reached start (history ++ [.read]) ((Parser.trace label options parser input).left before).settings

theorem eq_run_of_reached {start settings : Settings} {history : History} (h : Reached start history settings) :
    settings = history.run start := by
  induction h with
  | start => rfl
  | replace environment _ ih =>
    rw [History.run_concat, ← ih]
    rfl
  | set values _ ih =>
    rw [History.run_concat, ← ih]
    rfl
  | reset _ ih =>
    rw [History.run_concat, ← ih]
    rfl
  | ask question _ ih =>
    rw [History.run_concat, ← ih]
    rfl
  | call label options parser input outcome hon hanswer _ ih =>
    rw [History.run_concat, ← ih, Traced.left_trace hanswer, Trace.trail, if_neg hon]
    rfl

/-- the layers as values, merged as they stand, parents and all, are the record that the history tells -/
theorem merge_layered (history : History) (first : Environment) :
    Value.merge (Value.merge (.record defaults) history.layered) (.record (history.snapshot first).record) =
      .record (history.layers first) := by
  obtain ⟨hrecord, hfields⟩ := history.fields_layered
  have hlower : (Value.merge (.record defaults) history.layered).isRecord = true :=
    Value.isRecord_merge rfl hrecord
  rw [Value.merge_record (Value.plain_record_iff.1 (plain_environment _)).1, Value.fields_merge hlower rfl,
    Value.fields_merge rfl hrecord, hfields]
  rfl

/-- **Every read answers from the layers of the history.** -/
theorem reads_answer_from_layers {start settings : Settings} {history : History}
    (h : Reached start history settings) :
    let record := history.layers start.environment
    Value.merge (Value.merge (.record defaults) history.layered) (.record (history.snapshot start.environment).record) =
      .record record ∧
    (∀ session : Session, session.settings = settings → ∀ {α : Type} (question : Question α),
      ((Session.read question.ask).run session).1 = question.answer record) ∧
    (∀ {V κ ω E : Type} [Position ω] [View V κ ω] (label : Units) (options : TraceOptions E)
      (parser : ParserT Traced V V E) (input : V) (before : Session) (outcome : Outcome V V E),
      (parser input).answer before = .ok outcome → ((parser input).left before).settings = settings →
        let inner := (parser input).left before
        let after := (Parser.trace label options parser input).left before
        if options.enabled = some false then after = inner
        else after.lines = inner.lines ++
          Trace.written label options outcome (Question.debugEnabled.answer record) (Question.traceWidth.answer record)) ∧
    (history.isFixed = false → history.snapshot start.environment = history.environment start.environment) ∧
    (∀ between : History, (∀ event ∈ between, event.isChange = false) →
      (history ++ .read :: between).layers start.environment = record) ∧
    (∀ later : History, history.isFixed = true ∨ later.any Event.isChange = true →
      (history ++ .read :: later).layers start.environment = (history ++ later).layers start.environment) := by
  intro record
  have hrecord : settings.record = record := by
    rw [eq_run_of_reached h]
    exact History.record_run start history
  have hanswer : ∀ {α : Type} (question : Question α), question.ask settings = question.answer record := by
    intro α question
    rw [question.ask_eq, hrecord]
  refine ⟨merge_layered history start.environment, ?_, ?_, History.snapshot_of_not_isFixed _, ?_,
    History.layers_skip_read start.environment history⟩
  · rintro session rfl α question
    exact hanswer question
  · rintro V κ ω E _ _ label options parser input before outcome hinner rfl inner after
    have hafter : after = Trace.trail label options outcome inner := Traced.left_trace hinner
    split_ifs with hoff
    · rw [hafter, Trace.trail, if_pos hoff]
    · rw [hafter, Trace.trail, if_neg hoff, ← hanswer, ← hanswer]
      rfl
  · intro between hbetween
    exact (History.layers_between start.environment history between hbetween).1

/-- the environment is replaced after the first read, and neither a question nor a traced layer sees it -/
theorem reads_answer_from_kept_environment :
    let narrow : Environment := [(mark ++ .ofString "TRACE_WIDTH", .ofString "4")]
    let wide : Environment := [(mark ++ .ofString "TRACE_WIDTH", .ofString "9")]
    let values : Record := [(.ofString "debug", .bool true)]
    let fresh : Session := ⟨(Settings.initial narrow).reset, []⟩
    let changed : Session := ((Session.change (Settings.set values)).run fresh).2
    let asked : Session := ((Session.read (Question.ask .debugEnabled)).run changed).2
    let session : Session := ((Session.change (Settings.setEnvironment wide)).run asked).2
    let history : History := [.set values, .read, .replace wide]
    let input : Text := .ofString "abcdefg"
    let outcome : Outcome Text Text Unit := .success (View.drop input 7) (View.take input 7)
    let parser : ParserT Traced Text Text Unit := Parser.lift (Parser.takeWhile fun _ => true)
    let traced (enabled : Option Bool) := Parser.trace [0x74] ⟨enabled, fun _ => []⟩ parser input
    Reached (.initial narrow) history session.settings ∧
    ((Session.read (Question.ask .traceWidth)).run session).1 = 4 ∧
    (parser input).answer session = .ok outcome ∧
    ((traced none).left session).lines = [Trace.line [0x74] 4 (fun _ => []) outcome] ∧
    (traced (some false)).left session = session ∧
    History.layers narrow (history ++ [.read, .replace []]) = history.layers narrow ∧
    history.isFixed = true ∧
    History.layers narrow (history ++ [.read, .reset]) = History.layers narrow (history ++ [.reset]) := by
  intro narrow wide values fresh changed asked session history input outcome parser traced
  have hfresh : Reached (.initial narrow) [] fresh.settings := .start
  have hchanged : Reached (.initial narrow) [.set values] changed.settings := .set values hfresh
  have hasked : Reached (.initial narrow) [.set values, .read] asked.settings := .ask .debugEnabled hchanged
  have hreached : Reached (.initial narrow) history session.settings := .replace wide hasked
  have hwidth : Question.traceWidth.answer (history.layers (Settings.initial narrow).environment) = 4 := by
    decide +kernel
  have hdebug : Question.debugEnabled.answer (history.layers (Settings.initial narrow).environment) = true := by
    decide +kernel
  have hrun : (parser input).answer session = .ok outcome := by
    rw [Traced.answer_lift]
    exact Parser.cut_eq input 7 (by decide)
  obtain ⟨-, hask, hcall, -, hbetween, hskip⟩ := reads_answer_from_layers hreached
  have hon := hcall [0x74] ⟨none, fun _ => []⟩ parser input session outcome hrun rfl
  have hoff := hcall [0x74] ⟨some false, fun _ => []⟩ parser input session outcome hrun rfl
  refine ⟨hreached, (hask session rfl .traceWidth).trans hwidth, hrun, ?_, hoff, ?_, rfl, ?_⟩
  · rw [if_neg (by decide)] at hon
    refine hon.trans ?_
    rw [hwidth, hdebug]
    rfl
  · exact hbetween [.replace []] (by simp [Event.isChange])
  · exact hskip [.reset] (Or.inl rfl)

end SliceParser.Config
