/-
TRACING IS TRANSPARENT: it writes lines, and nothing else comes of it.

- `Wrapper`: a commit point, with a strategy of its own, or a traced layer, with a writer of its own. `Nesting`:
  wrappers around a parser, the first of them outermost.
- `Nesting.hand`: the outcome that a nesting hands on. It answers that wherever the parser inside has an outcome
  (`Nesting.answer_wrap`), and traced layers make no difference to it (`Nesting.hand_untraced`).
- `Wrapper.lines_wrap`: **a traced layer that is on writes one line behind those of the layers inside, any other wrapper
  writes none.** Whether it is on is read from the settings that the layers inside leave.
- `Nesting.record_wrap`: if no writer changes what the settings answer, that is the same for all layers, whichever of
  them asks first, and `Nesting.length_lines_wrap` counts the lines of one call.
- `tracing_is_transparent`: **without its traced layers a parser answers the same**, whatever the settings are and
  whatever is written.

Writers, and the texts of errors and values, are total functions here. A traced layer whose writer throws is another
thing: it does not hand on the outcome.
-/
import SliceParser.Proofs.Layer.Trace
import SliceParser.View.Text
import Mathlib.Tactic.SplitIfs

namespace SliceParser

/-! ## Settings -/

namespace Config.Settings

theorem debugEnabled_of_record {s s' : Settings} (h : s.record = s'.record) : s.debugEnabled = s'.debugEnabled := by
  simp only [debugEnabled, getPath?, h]

/-- tracing is on by nothing but the value true -/
theorem debugEnabled_iff (s : Settings) : s.debugEnabled = true ↔ s.get? (.ofString "debug") = some (.bool true) := by
  have hpath : splitPath (.ofString "debug") = [.ofString "debug"] := by decide +kernel
  rw [get?, hpath, debugEnabled]
  split
  · rename_i h
    simp [h]
  · rename_i h
    simpa using h

end Config.Settings

/-- taking a line makes no difference to what the settings answer -/
def Writer.KeepsRecord (writer : Writer) : Prop :=
  ∀ line settings, (writer line settings).record = settings.record

theorem Trace.record_trailTo {V O E : Type} [Shown V] [Shown O] {writer : Writer} (hkeeps : writer.KeepsRecord)
    (label : Units) (options : TraceOptions E) (outcome : Outcome V O E) (session : Session) :
    (Trace.trailTo writer label options outcome session).settings.record = session.settings.record := by
  have hfold : ∀ (lines : List Units) (settings : Config.Settings),
      (lines.foldl (fun settings line => writer line settings) settings).record = settings.record := by
    intro lines
    induction lines with
    | nil => exact fun settings => rfl
    | cons line lines ih => exact fun settings => (ih (writer line settings)).trans (hkeeps line settings)
  rw [trailTo, hfold, trail]
  split_ifs <;> rfl

theorem Traced.left_context {V O E : Type} {label : Units} {errors : ErrorStrategy V E} {parser : ParserT Traced V O E}
    {input : V} {session : Session} {outcome : Outcome V O E} (h : (parser input).answer session = .ok outcome) :
    (Parser.context label errors parser input).left session = (parser input).left session := by
  unfold Parser.context
  rw [left_bind_ok h]
  cases outcome with
  | success rest value => rfl
  | failed err => cases err <;> rfl

/-! ## Wrappers -/

/-- what may be laid around a parser and calls it with its own input -/
inductive Wrapper (V E : Type) where
  | context (label : Units) (errors : ErrorStrategy V E)
  | trace (writer : Writer) (label : Units) (options : TraceOptions E)

namespace Wrapper

variable {V O E : Type} [Shown V] [Shown O]

def wrap (parser : ParserT Traced V O E) : Wrapper V E → ParserT Traced V O E
  | .context label errors => Parser.context label errors parser
  | .trace writer label options => Parser.traceTo writer label options parser

def isTrace : Wrapper V E → Bool
  | .context _ _ => false
  | .trace _ _ _ => true

/-- switched on, or without a switch of its own while the settings are on -/
def isOn (debug : Bool) : Wrapper V E → Bool
  | .context _ _ => false
  | .trace _ _ options => options.enabled.getD debug

def KeepsRecord : Wrapper V E → Prop
  | .context _ _ => True
  | .trace writer _ _ => writer.KeepsRecord

/-- the outcome that a wrapper hands on -/
def hand (input : V) (outcome : Outcome V O E) : Wrapper V E → Outcome V O E
  | .context label errors => outcome.committed (errors.addContext input label)
  | .trace _ _ _ => outcome

/-- the lines that a wrapper writes when it gets an outcome, given what it reads from the settings -/
def written (outcome : Outcome V O E) (settings : Config.Settings) : Wrapper V E → List Units
  | .context _ _ => []
  | .trace _ label options => Trace.written label options outcome settings.debugEnabled settings.traceWidth

theorem length_written (outcome : Outcome V O E) (settings : Config.Settings) (wrapper : Wrapper V E) :
    (wrapper.written outcome settings).length = if wrapper.isOn settings.debugEnabled then 1 else 0 := by
  cases wrapper with
  | context label errors => rfl
  | trace writer label options =>
    rw [written, isOn, Trace.written]
    split_ifs <;> rfl

variable {parser : ParserT Traced V O E} {input : V} {session : Session} {outcome : Outcome V O E}

theorem answer_wrap (wrapper : Wrapper V E) (h : (parser input).answer session = .ok outcome) :
    (wrapper.wrap parser input).answer session = .ok (wrapper.hand input outcome) := by
  cases wrapper with
  | context label errors =>
    rw [wrap, Traced.answer_context, h]
    rfl
  | trace writer label options => exact (Traced.answer_traceTo _ _ _ _ _ _).trans h

/-- **A traced layer that is on writes one line behind those of the layers inside, any other wrapper writes none.** -/
theorem lines_wrap (wrapper : Wrapper V E) (h : (parser input).answer session = .ok outcome) :
    ((wrapper.wrap parser input).left session).lines =
      ((parser input).left session).lines ++ wrapper.written outcome ((parser input).left session).settings := by
  cases wrapper with
  | context label errors =>
    rw [wrap, Traced.left_context h]
    exact (List.append_nil _).symm
  | trace writer label options =>
    rw [wrap, Traced.left_traceTo h, written, Trace.trailTo, Trace.trail]
    split_ifs with hoff
    · rw [Trace.written, hoff]
      exact (List.append_nil _).symm
    · rfl

theorem record_wrap {wrapper : Wrapper V E} (hkeeps : wrapper.KeepsRecord)
    (h : (parser input).answer session = .ok outcome) :
    ((wrapper.wrap parser input).left session).settings.record = ((parser input).left session).settings.record := by
  cases wrapper with
  | context label errors => rw [wrap, Traced.left_context h]
  | trace writer label options => rw [wrap, Traced.left_traceTo h, Trace.record_trailTo hkeeps]

end Wrapper

/-! ## Nestings -/

/-- wrappers around a parser, the first of them outermost -/
abbrev Nesting (V E : Type) := List (Wrapper V E)

namespace Nesting

variable {V O E : Type}

/-- the outcome that all wrappers hand on -/
def hand (input : V) (outcome : Outcome V O E) (nesting : Nesting V E) : Outcome V O E :=
  nesting.foldr (fun wrapper inner => wrapper.hand input inner) outcome

/-- the wrappers without the traced layers -/
def untraced (nesting : Nesting V E) : Nesting V E :=
  nesting.filter fun wrapper => !wrapper.isTrace

theorem hand_untraced (input : V) (outcome : Outcome V O E) (nesting : Nesting V E) :
    hand input outcome (untraced nesting) = hand input outcome nesting := by
  induction nesting with
  | nil => rfl
  | cons wrapper nested ih =>
    cases wrapper with
    | context label errors => exact congrArg (Outcome.committed (errors.addContext input label)) ih
    | trace writer label options => exact ih

variable [Shown V] [Shown O]

def wrap (parser : ParserT Traced V O E) : Nesting V E → ParserT Traced V O E
  | [] => parser
  | wrapper :: nested => wrapper.wrap (wrap parser nested)

variable {parser : ParserT Traced V O E} {input : V} {session : Session} {outcome : Outcome V O E}

theorem answer_wrap (nesting : Nesting V E) (h : (parser input).answer session = .ok outcome) :
    (nesting.wrap parser input).answer session = .ok (nesting.hand input outcome) := by
  induction nesting with
  | nil => exact h
  | cons wrapper nested ih => exact wrapper.answer_wrap ih

theorem record_wrap {nesting : Nesting V E} (hkeeps : ∀ wrapper ∈ nesting, wrapper.KeepsRecord)
    (h : (parser input).answer session = .ok outcome) :
    ((nesting.wrap parser input).left session).settings.record = ((parser input).left session).settings.record := by
  induction nesting with
  | nil => rfl
  | cons wrapper nested ih =>
    obtain ⟨hwrapper, hnested⟩ := List.forall_mem_cons.1 hkeeps
    exact (Wrapper.record_wrap hwrapper (answer_wrap nested h)).trans (ih hnested)

/-- one line for each traced layer that is on by the settings that the parser inside leaves -/
theorem length_lines_wrap {nesting : Nesting V E} (hkeeps : ∀ wrapper ∈ nesting, wrapper.KeepsRecord)
    (h : (parser input).answer session = .ok outcome) :
    ((nesting.wrap parser input).left session).lines.length = ((parser input).left session).lines.length +
      nesting.countP (Wrapper.isOn ((parser input).left session).settings.debugEnabled) := by
  induction nesting with
  | nil => rfl
  | cons wrapper nested ih =>
    obtain ⟨-, hnested⟩ := List.forall_mem_cons.1 hkeeps
    have hdebug := Config.Settings.debugEnabled_of_record (record_wrap hnested h)
    rw [wrap, wrapper.lines_wrap (answer_wrap nested h), List.length_append, Wrapper.length_written, ih hnested, hdebug,
      List.countP_cons, Nat.add_assoc]

end Nesting

/-! ## Transparency -/

/-- **Tracing changes no outcome, and one call writes one line for each traced layer that is on, inner lines first.** A
layer without a switch of its own is on if `debug` is true when the layers inside it are done. -/
theorem tracing_is_transparent {V O E : Type} [Shown V] [Shown O] (nesting : Nesting V E)
    (parser : ParserT Traced V O E) (input : V) (outcome : Outcome V O E) :
    (∀ session, (parser input).answer session = .ok outcome →
      (nesting.wrap parser input).answer session = .ok (nesting.hand input outcome) ∧
      (nesting.untraced.wrap parser input).answer session = .ok (nesting.hand input outcome)) ∧
    (∀ session, (parser input).answer session = .ok outcome →
      ∀ outer wrapper nested, nesting = outer ++ wrapper :: nested →
        let inside := (Nesting.wrap parser nested input).left session
        let after := (Nesting.wrap parser (wrapper :: nested) input).left session
        let written := wrapper.written (Nesting.hand input outcome nested) inside.settings
        after.lines = inside.lines ++ written ∧
        written.length = (if wrapper.isOn inside.settings.debugEnabled then 1 else 0) ∧
        (inside.settings.debugEnabled = true ↔ inside.settings.get? (.ofString "debug") = some (.bool true))) ∧
    (∀ session, (parser input).answer session = .ok outcome → (∀ wrapper ∈ nesting, wrapper.KeepsRecord) →
      ((nesting.wrap parser input).left session).lines.length = ((parser input).left session).lines.length +
        nesting.countP (Wrapper.isOn ((parser input).left session).settings.debugEnabled)) := by
  refine ⟨?_, ?_, ?_⟩
  · intro session houtcome
    refine ⟨nesting.answer_wrap houtcome, ?_⟩
    rw [nesting.untraced.answer_wrap houtcome, Nesting.hand_untraced]
  · intro session houtcome outer wrapper nested _ inside after written
    exact ⟨wrapper.lines_wrap (Nesting.answer_wrap nested houtcome), wrapper.length_written _ _,
      inside.settings.debugEnabled_iff⟩
  · intro session houtcome hkeeps
    exact Nesting.length_lines_wrap hkeeps houtcome

/-- an error under four wrappers: one traces as the settings say, one commits, one is switched off and one is switched
on, and in the second nesting its writer turns tracing on for the layers outside -/
theorem transparent_in_loud_and_quiet_sessions :
    let input : Text := .ofUnits [0x62]
    let inside : ParserT Traced Text Text Unit := fun _ => return .error ()
    let plain : Writer := fun _ settings => settings
    let switching : Writer := fun _ settings => settings.set [(.ofString "debug", .bool true)]
    let options (enabled : Option Bool) : TraceOptions Unit := ⟨enabled, fun _ => [0x65]⟩
    let nesting (writer : Writer) : Nesting Text Unit := [.trace plain [0x6F] (options none), .context [0x63] .unit,
      .trace plain [0x6D] (options (some false)), .trace writer [0x69] (options (some true))]
    let quiet : Session := .initial []
    let loud : Session := .initial [(Config.mark ++ .ofString "DEBUG", .ofString "1")]
    (∀ session, (inside input).answer session = .ok (.error ())) ∧
    (∀ wrapper ∈ nesting plain, wrapper.KeepsRecord) ∧
    ((nesting plain).wrap inside input).answer loud = .ok (.failure ()) ∧
    ((nesting switching).untraced.wrap inside input).answer quiet = .ok (.failure ()) ∧
    (((nesting plain).wrap inside input).left quiet).lines.length = 1 ∧
    (((nesting plain).wrap inside input).left loud).lines.length = 2 ∧
    (((nesting switching).wrap inside input).left quiet).lines =
      [.ofString "i: Error e", .ofString "o: Failure e"] := by
  intro input inside plain switching options nesting quiet loud
  have hinside : ∀ session, (inside input).answer session = .ok (.error ()) := fun session => rfl
  have hplain : plain.KeepsRecord := fun line settings => rfl
  have hkeeps : ∀ wrapper ∈ nesting plain, wrapper.KeepsRecord := by
    simp [nesting, Wrapper.KeepsRecord, hplain]
  have hquiet : ((inside input).left quiet).settings.debugEnabled = false := by decide +kernel
  have hloud : ((inside input).left loud).settings.debugEnabled = true := by decide +kernel
  obtain ⟨hanswer, -, hlines⟩ := tracing_is_transparent (nesting plain) inside input (.error ())
  obtain ⟨hanswer', hstep, -⟩ := tracing_is_transparent (nesting switching) inside input (.error ())
  refine ⟨hinside, hkeeps, (hanswer loud (hinside loud)).1, (hanswer' quiet (hinside quiet)).2, ?_, ?_, ?_⟩
  · rw [hlines quiet (hinside quiet) hkeeps, hquiet]
    rfl
  · rw [hlines loud (hinside loud) hkeeps, hloud]
    rfl
  · refine (hstep quiet (hinside quiet) [] _ _ rfl).1.trans ?_
    decide +kernel

end SliceParser
