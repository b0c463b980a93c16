/-
PRECEDENCE: which layer a read answers from when several have something at its path.

- `isOurs`: the variables that set a path at all. The others make no difference (`record_filter_isOurs`).
- `ownPath?_setVariable`, `ownPath?_setVariable_of_unrelated`: what one variable does. `ownPath?_foldl_of_unrelated`: a
  run of variables makes no difference at a path that none of them is related to.
- `ownPath?_record`: **the last variable that is related to its own path is found there**, whatever the earlier ones
  wrote at it, on the way to it or behind it.
- `environment_wins`: **a read of that path answers what the variable stands for**, in every run of a program and
  whatever the other layers have there.
-/
import SliceParser.Proofs.Config.Reads

namespace SliceParser.Config

/-! ## One variable -/

/-- whether a variable sets a path -/
def isOurs (var : Units × Units) : Bool := (variablePath? var.1).isSome

theorem ownPath?_setVariable {var : Units × Units} {path : Path} (h : variablePath? var.1 = some path)
    (record : Record) : Value.ownPath? path (.record (setVariable record var)) = some (variableValue var.2) := by
  rw [setVariable_of_some h, Record.ownPath?_setPath (variablePath?_ne_nil h)]

theorem ownPath?_setVariable_of_unrelated {var : Units × Units} {path : Path}
    (h : ∀ p, variablePath? var.1 = some p → Unrelated p path) (record : Record) :
    Value.ownPath? path (.record (setVariable record var)) = Value.ownPath? path (.record record) := by
  cases hvar : variablePath? var.1 with
  | none => rw [setVariable_of_none hvar]
  | some p => rw [setVariable_of_some hvar, Record.ownPath?_setPath_of_unrelated (h p hvar)]

/-! ## All variables -/

theorem ownPath?_foldl_of_unrelated {env : Environment} {path : Path}
    (h : ∀ var ∈ env, ∀ p, variablePath? var.1 = some p → Unrelated p path) (record : Record) :
    Value.ownPath? path (.record (env.foldl setVariable record)) = Value.ownPath? path (.record record) := by
  induction env generalizing record with
  | nil => rfl
  | cons var env ih =>
    rw [List.foldl_cons, ih fun other hother => h other (List.mem_cons_of_mem _ hother),
      ownPath?_setVariable_of_unrelated (h var List.mem_cons_self)]

/-- **The last variable that is related to its own path is found there.** -/
theorem ownPath?_record {before after : Environment} {name text : Units} {path : Path}
    (hpath : variablePath? name = some path)
    (hlast : ∀ later ∈ after, ∀ p, variablePath? later.1 = some p → Unrelated p path) :
    Value.ownPath? path (.record (Environment.record (before ++ (name, text) :: after))) =
      some (variableValue text) := by
  rw [Environment.record, List.foldl_append, List.foldl_cons, ownPath?_foldl_of_unrelated hlast]
  exact ownPath?_setVariable hpath _

/-- what is no variable of ours makes no difference -/
theorem record_filter_isOurs (env : Environment) : Environment.record (env.filter isOurs) = env.record := by
  have hfold : ∀ record, (env.filter isOurs).foldl setVariable record = env.foldl setVariable record := by
    induction env with
    | nil => exact fun _ => rfl
    | cons var env ih =>
      intro record
      cases hvar : variablePath? var.1 with
      | none => simp [isOurs, hvar, ih, setVariable_of_none hvar]
      | some path => simp [isOurs, hvar, ih]
  exact hfold []

/-! ## Reads -/

theorem read_of_reached {start : Settings} {history : History} {session : Session}
    (h : Reached start history session.settings) {α : Type} (question : Question α) :
    ((Session.read question.ask).run session).1 = question.answer (history.layers start.environment) := by
  have hrecord : session.settings.record = history.layers start.environment := by
    rw [eq_run_of_reached h, History.record_run]
  rw [← hrecord, ← question.ask_eq]
  rfl

/-- **The environment wins.** The environment is that of the load: as it stands, if nothing has been read since the last
change, and else as it stood at the first read behind that. -/
theorem environment_wins {start : Settings} {history : History} {session : Session}
    (h : Reached start history session.settings) {before after : Environment} {name text path : Units}
    (henv : history.snapshot start.environment = before ++ (name, text) :: after)
    (hpath : variablePath? name = some (splitPath path))
    (hlast : ∀ later ∈ after, ∀ p, variablePath? later.1 = some p → Unrelated p (splitPath path)) :
    ((Session.read (Question.get path).ask).run session).1 = some (variableValue text) ∧
    (history.isFixed = false → history.snapshot start.environment = history.environment start.environment) := by
  refine ⟨?_, History.snapshot_of_not_isFixed _⟩
  have hrecord : Value.ownPath? (splitPath path) (.record (history.snapshot start.environment).record) =
      some (variableValue text) := by
    rw [henv]
    exact ownPath?_record hpath hlast
  rw [read_of_reached h]
  apply Value.getPath?_of_ownPath?
  rw [History.layers, ← merge_environment]
  exact Value.ownPath?_merge_of_isLeaf (plain_environment _) (variableValue_isLeaf text) hrecord _

/-- the program and an earlier variable both put a scalar where the path leads through, and later variables go by -/
theorem environment_wins_over_scalars :
    let var (name text : String) : Units × Units := (mark ++ .ofString name, .ofString text)
    let before : Environment := [var "TRACE" "off", (.ofString "PATH", .ofString "/bin")]
    let after : Environment := [var "TRACER_WIDTH" "5", (.ofString "TRACE_WIDTH", .ofString "6"), var "DEBUG" "1"]
    let environment : Environment := before ++ var "Trace__Width" "0064" :: after
    let values : Record := [(.ofString "trace", .bool true)]
    let fresh : Session := ⟨(Settings.initial environment).reset, []⟩
    let session : Session := ((Session.change (Settings.set values)).run fresh).2
    Reached (.initial environment) [.set values] session.settings ∧
    History.snapshot environment [.set values] = environment ∧
    variablePath? (mark ++ .ofString "Trace__Width") = some (splitPath (.ofString "trace.width")) ∧
    (∀ later ∈ after, ∀ p, variablePath? later.1 = some p → Unrelated p (splitPath (.ofString "trace.width"))) ∧
    ((Session.read (Question.get (.ofString "trace.width")).ask).run session).1 =
      some (.number (.round (64 : Int))) := by
  intro var before after environment values fresh session
  have hfresh : Reached (.initial environment) [] fresh.settings := .start
  have hreached : Reached (.initial environment) [.set values] session.settings := .set values hfresh
  have hpath : variablePath? (mark ++ .ofString "Trace__Width") = some (splitPath (.ofString "trace.width")) := by
    decide +kernel
  have hlast : ∀ later ∈ after, ∀ p, variablePath? later.1 = some p →
      Unrelated p (splitPath (.ofString "trace.width")) := by
    have hall : after.all (fun later => (variablePath? later.1).all fun p =>
        decide (Unrelated p (splitPath (.ofString "trace.width")))) = true := by decide +kernel
    intro later hlater p hp
    simpa [hp] using List.all_eq_true.1 hall later hlater
  have hvalue : variableValue (.ofString "0064") = .number (.round (64 : Int)) := by
    have hdigits : digitsValue (.ofString "0064") = 64 := by decide +kernel
    rw [variableValue, if_neg (by decide +kernel), if_neg (by decide +kernel), if_pos (by decide +kernel), hdigits]
    rfl
  refine ⟨hreached, rfl, hpath, hlast, ?_⟩
  rw [← hvalue]
  exact (environment_wins hreached rfl hpath hlast).1

end SliceParser.Config
