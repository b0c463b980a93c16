/-
THE ORDER OF VARIABLES makes no difference, as long as none of them sets what another one sets.

- `SetsApart`: two variables that do not set related paths. `setVariable_comm`: they can be read in either order.
- `alike_foldl_of_perm`: so can any number of variables of which no two set related paths; what they make of a record is
  the same but for the order of names.
- `alike_layers`: nor does it make a difference which other variables stand between them, when their layer is laid over
  the defaults and what the program set.
- `order_of_variables_is_irrelevant`: **the answers are the same**, in every two runs of a program that load the same
  variables in different orders.
-/
import SliceParser.Proofs.Config.Alike
import SliceParser.Proofs.Config.Precedence

namespace SliceParser.Config

open Value (Alike)

/-! ## Two variables -/

/-- not both of two variables are ours, or the paths that they set are unrelated -/
def SetsApart (var other : Units × Units) : Prop :=
  ∀ p ∈ variablePath? var.1, ∀ q ∈ variablePath? other.1, Unrelated p q

instance (var other : Units × Units) : Decidable (SetsApart var other) :=
  inferInstanceAs (Decidable (∀ p ∈ variablePath? var.1, ∀ q ∈ variablePath? other.1, Unrelated p q))

theorem SetsApart.symm {var other : Units × Units} (h : SetsApart var other) : SetsApart other var :=
  fun p hp q hq => (h q hq p hp).symm

theorem alike_setVariable {a b : Record} (var : Units × Units) (h : Alike (.record a) (.record b)) :
    Alike (.record (setVariable a var)) (.record (setVariable b var)) := by
  cases hvar : variablePath? var.1 with
  | none => rwa [setVariable_of_none hvar, setVariable_of_none hvar]
  | some path =>
    rw [setVariable_of_some hvar, setVariable_of_some hvar]
    exact Record.alike_setPath _ path h

/-- variables that set unrelated paths can be read in either order -/
theorem setVariable_comm {var other : Units × Units} (h : SetsApart var other) (record : Record) :
    Alike (.record (setVariable (setVariable record var) other))
      (.record (setVariable (setVariable record other) var)) := by
  cases hvar : variablePath? var.1 with
  | none =>
    rw [setVariable_of_none hvar, setVariable_of_none hvar]
    exact .refl _
  | some p =>
    cases hother : variablePath? other.1 with
    | none =>
      rw [setVariable_of_none hother, setVariable_of_none hother]
      exact .refl _
    | some q =>
      simp only [setVariable_of_some hvar, setVariable_of_some hother]
      exact Record.setPath_comm (h p hvar q hother) _ _ record

/-! ## All variables -/

theorem alike_foldl_setVariable {a b : Record} (env : Environment) (h : Alike (.record a) (.record b)) :
    Alike (.record (env.foldl setVariable a)) (.record (env.foldl setVariable b)) := by
  induction env generalizing a b with
  | nil => exact h
  | cons var env ih => exact ih (alike_setVariable var h)

/-- **Variables of which no two set related paths can be read in any order.** -/
theorem alike_foldl_of_perm {env env' : Environment} (hperm : env.Perm env') (hapart : env.Pairwise SetsApart)
    {a b : Record} (h : Alike (.record a) (.record b)) :
    Alike (.record (env.foldl setVariable a)) (.record (env'.foldl setVariable b)) := by
  induction hperm generalizing a b with
  | nil => exact h
  | cons var hperm ih => exact ih (List.pairwise_cons.1 hapart).2 (alike_setVariable var h)
  | swap var other env =>
    have hpair : SetsApart other var := (List.pairwise_cons.1 hapart).1 var List.mem_cons_self
    exact alike_foldl_setVariable env
      ((setVariable_comm hpair a).trans (alike_setVariable other (alike_setVariable var h)))
  | trans hfirst hsecond ihfirst ihsecond =>
    have hapart' := (hfirst.pairwise_iff fun h => h.symm).1 hapart
    exact (ihfirst hapart h).trans (ihsecond hapart' (.refl _))

/-- other variables between them make no difference, nor does a layer below -/
theorem alike_layers {env env' : Environment} (hperm : (env.filter isOurs).Perm (env'.filter isOurs))
    (hapart : (env.filter isOurs).Pairwise SetsApart) (lower : Record) :
    Alike (.record (lower.merge env.record)) (.record (lower.merge env'.record)) := by
  have hrecords : Alike (.record env.record) (.record env'.record) := by
    rw [← record_filter_isOurs env, ← record_filter_isOurs env']
    exact alike_foldl_of_perm hperm hapart (.refl _)
  rw [← merge_environment, ← merge_environment]
  exact hrecords.merge (plain_environment env) (plain_environment env') (.record lower)

/-! ## Reads -/

theorem has_eq_of_alike {a b : Record} (h : Alike (.record a) (.record b)) (path : Units) :
    (Question.has path).answer a = (Question.has path).answer b := by
  rw [Question.answer, Question.answer]
  rcases Value.rel_alike_cases (h.getPath? (splitPath path)) with ⟨ha, hb⟩ | ⟨v, w, ha, hb, hvalue⟩
  · rw [ha, hb]
  · rw [ha, hb, Option.any_some, Option.any_some, hvalue.isTruthy_eq]

/-- **The order of variables is irrelevant** to all reads, as long as no two of them set related paths. -/
theorem order_of_variables_is_irrelevant {start start' : Settings} {history history' : History}
    {session session' : Session} (h : Reached start history session.settings)
    (h' : Reached start' history' session'.settings) (hset : history.programmatic = history'.programmatic)
    (hperm : ((history.snapshot start.environment).filter isOurs).Perm
      ((history'.snapshot start'.environment).filter isOurs))
    (hapart : ((history.snapshot start.environment).filter isOurs).Pairwise SetsApart) :
    Alike (.record ((Session.read Question.all.ask).run session).1)
      (.record ((Session.read Question.all.ask).run session').1) ∧
    (∀ path, Option.Rel Alike ((Session.read (Question.get path).ask).run session).1
      ((Session.read (Question.get path).ask).run session').1) ∧
    ∀ path, ((Session.read (Question.has path).ask).run session).1 =
      ((Session.read (Question.has path).ask).run session').1 := by
  simp only [read_of_reached h, read_of_reached h']
  have hlayers : Alike (.record (history.layers start.environment)) (.record (history'.layers start'.environment)) := by
    rw [History.layers, History.layers, ← hset]
    exact alike_layers hperm hapart _
  exact ⟨hlayers, fun path => hlayers.getPath? (splitPath path), has_eq_of_alike hlayers⟩

/-- two variables go on in one record, a third stands apart, others stand between them, and the program has a scalar where
two of the paths lead through; the names come in another order, and the answers are the same -/
theorem reordered_variables_answer_alike :
    let var (name text : String) : Units × Units := (mark ++ .ofString name, .ofString text)
    let environment : Environment :=
      [var "TRACE_WIDTH" "5", var "DEBUG" "1", (.ofString "PATH", .ofString "/bin"), var "TRACE__COLOR" "red"]
    let environment' : Environment :=
      [(.ofString "HOME", .ofString "/"), var "DEBUG" "1", var "TRACE__COLOR" "red", var "TRACE_WIDTH" "5"]
    let values : Record := [(.ofString "trace", .bool true)]
    let fresh : Session := ⟨(Settings.initial environment).reset, []⟩
    let fresh' : Session := ⟨(Settings.initial environment').reset, []⟩
    let session : Session := ((Session.change (Settings.set values)).run fresh).2
    let session' : Session := ((Session.change (Settings.set values)).run fresh').2
    Reached (.initial environment) [.set values] session.settings ∧
    Reached (.initial environment') [.set values] session'.settings ∧
    (environment.filter isOurs).Perm (environment'.filter isOurs) ∧
    (environment.filter isOurs).Pairwise SetsApart ∧
    environment.record.map Prod.fst ≠ environment'.record.map Prod.fst ∧
    Alike (.record ((Session.read Question.all.ask).run session).1)
      (.record ((Session.read Question.all.ask).run session').1) := by
  intro var environment environment' values fresh fresh' session session'
  have hfresh : Reached (.initial environment) [] fresh.settings := .start
  have hfresh' : Reached (.initial environment') [] fresh'.settings := .start
  have hreached : Reached (.initial environment) [.set values] session.settings := .set values hfresh
  have hreached' : Reached (.initial environment') [.set values] session'.settings := .set values hfresh'
  have hperm : (environment.filter isOurs).Perm (environment'.filter isOurs) := by decide +kernel
  have hapart : (environment.filter isOurs).Pairwise SetsApart := by decide +kernel
  refine ⟨hreached, hreached', hperm, hapart, by decide +kernel, ?_⟩
  exact (order_of_variables_is_irrelevant hreached hreached' rfl hperm hapart).1

end SliceParser.Config
