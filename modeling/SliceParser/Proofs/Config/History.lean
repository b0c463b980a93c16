/-
HISTORIES of settings: which layers a read answers from, told by what happened before it.

- `Event`: the environment is replaced, values are set, all is reset, or something is read. `run` is what a history
  makes of settings that were just reset.
- `programmatic`: the values that were set since the last reset, merged in order (`layered`, as a value). `snapshot`:
  the environment as it stood at the first read after the last change, or as it stands if nothing was read since then.
  `layers`: the defaults, the first and the second of these, laid over each other.
- `record_run`: **whatever the history, the next read answers from its layers.** The invariant is `run_eq`: layers are
  kept joined exactly when something was read since the last change (`isFixed`).
- `layers_between`: until the next change, neither reads nor the environment make a difference. `layers_skip_read`: a
  read that does not fix the environment for what is asked later makes no difference to it.
-/
import SliceParser.Proofs.Config.Merge
import Mathlib.Data.List.DropRight
import Mathlib.Tactic

namespace SliceParser.Config

/-- what may happen to settings -/
inductive Event where
  | replace (environment : Environment)
  | set (values : Record)
  | reset
  | read

namespace Event

def apply (s : Settings) : Event → Settings
  | .replace environment => s.setEnvironment environment
  | .set values => s.set values
  | .reset => s.reset
  | .read => s.fixed

/-- the program changed its layer, and the layers have to be joined again -/
def isChange : Event → Bool
  | .set _ => true
  | .reset => true
  | _ => false

def isReset : Event → Bool
  | .reset => true
  | _ => false

def isRead : Event → Bool
  | .read => true
  | _ => false

def values? : Event → Option Record
  | .set values => some values
  | _ => none

def environment? : Event → Option Environment
  | .replace environment => some environment
  | _ => none

end Event

/-- events in the order they happened, behind a reset -/
abbrev History := List Event

namespace History

/-- what a history makes of settings that are reset first -/
def run (start : Settings) (history : History) : Settings :=
  history.foldl Event.apply start.reset

/-! ## What a history says of the layers -/

/-- the events behind the last one that satisfies `p` -/
def since (p : Event → Bool) (history : History) : History :=
  history.rtakeWhile fun event => !p event

/-- the events up to the last one that satisfies `p` -/
def upTo (p : Event → Bool) (history : History) : History :=
  history.rdropWhile fun event => !p event

/-- the values set since the last reset, merged in order -/
def programmatic (history : History) : Record :=
  ((history.since Event.isReset).filterMap Event.values?).foldl Record.merge []

/-- the same as a value, with the parent that merging may have given it -/
def layered (history : History) : Value :=
  ((history.since Event.isReset).filterMap Event.values?).foldl
    (fun sofar values => Value.merge sofar (.record values)) (.record [])

/-- the environment that a history leaves, which begins in `first` -/
def environment (first : Environment) (history : History) : Environment :=
  (history.filterMap Event.environment?).getLast?.getD first

/-- the layers have been read since the last change -/
def isFixed (history : History) : Bool :=
  (history.since Event.isChange).any Event.isRead

/-- what happened up to the first read after the last change -/
def untilRead (history : History) : History :=
  history.upTo Event.isChange ++ (history.since Event.isChange).takeWhile fun event => !event.isRead

/-- the environment as it stood at the first read after the last change -/
def snapshot (first : Environment) (history : History) : Environment :=
  environment first history.untilRead

/-- the layers that reads answer from -/
def layers (first : Environment) (history : History) : Record :=
  (defaults.merge history.programmatic).merge (history.snapshot first).record

/-! ## One event more -/

section

variable (history : History) (event : Event)

theorem run_concat (start : Settings) : run start (history ++ [event]) = event.apply (run start history) := by
  rw [run, List.foldl_append]
  rfl

theorem run_append (start : Settings) (later : History) :
    run start (history ++ later) = later.foldl Event.apply (run start history) :=
  List.foldl_append

theorem upTo_append_since (p : Event → Bool) : history.upTo p ++ history.since p = history :=
  List.rdropWhile_append_rtakeWhile

variable {history event}

theorem since_concat {p : Event → Bool} (h : p event = false) :
    since p (history ++ [event]) = history.since p ++ [event] :=
  List.rtakeWhile_concat_pos _ _ _ (by simp [h])

theorem since_concat_of {p : Event → Bool} (h : p event = true) : since p (history ++ [event]) = [] :=
  List.rtakeWhile_concat_neg _ _ _ (by simp [h])

theorem upTo_concat {p : Event → Bool} (h : p event = false) : upTo p (history ++ [event]) = history.upTo p :=
  List.rdropWhile_concat_pos _ _ _ (by simp [h])

theorem programmatic_concat (h : event.isReset = false) :
    programmatic (history ++ [event]) = event.values?.elim history.programmatic history.programmatic.merge := by
  rw [programmatic, since_concat h, List.filterMap_append, List.foldl_append]
  cases event <;> rfl

theorem programmatic_reset : programmatic (history ++ [.reset]) = [] := by
  rw [programmatic, since_concat_of rfl]
  rfl

theorem environment_concat (first : Environment) :
    environment first (history ++ [event]) = event.environment?.getD (environment first history) := by
  rw [environment, List.filterMap_append, List.getLast?_append]
  cases event <;> rfl

theorem isFixed_concat (h : event.isChange = false) :
    isFixed (history ++ [event]) = (history.isFixed || event.isRead) := by
  rw [isFixed, since_concat h, List.any_append, List.any_cons, List.any_nil, Bool.or_false]
  rfl

theorem isFixed_change (h : event.isChange = true) : isFixed (history ++ [event]) = false := by
  rw [isFixed, since_concat_of h]
  rfl

theorem untilRead_of_not_isFixed (h : history.isFixed = false) : history.untilRead = history := by
  have hquiet : (history.since Event.isChange).takeWhile (fun event => !event.isRead) = history.since Event.isChange := by
    rw [List.takeWhile_eq_self_iff]
    intro event hmem
    simpa using List.any_eq_false.1 h event hmem
  rw [untilRead, hquiet, upTo_append_since]

/-- once something was read, only a change moves the place up to which the environment counts -/
theorem untilRead_concat (hfixed : (history.isFixed || event.isRead) = true) (h : event.isChange = false) :
    untilRead (history ++ [event]) = history.untilRead := by
  rw [untilRead, untilRead, upTo_concat h, since_concat h, List.takeWhile_append]
  split
  · rename_i hlength
    have hquiet := List.IsPrefix.eq_of_length (List.takeWhile_prefix _) hlength
    have hnone : history.isFixed = false := by
      rw [isFixed, List.any_eq_false]
      intro e hmem
      simpa using List.takeWhile_eq_self_iff.1 hquiet e hmem
    rw [hnone, Bool.false_or] at hfixed
    simp [hquiet, hfixed]
  · rfl

/-! ## What reads answer from -/

/-- the values that were set, as a value, have the fields that they have as a record -/
theorem fields_layered (history : History) :
    history.layered.isRecord = true ∧ history.layered.fields = history.programmatic := by
  have hfold : ∀ (layers : List Record) (sofar : Value), sofar.isRecord = true →
      (layers.foldl (fun sofar values => Value.merge sofar (.record values)) sofar).isRecord = true ∧
      (layers.foldl (fun sofar values => Value.merge sofar (.record values)) sofar).fields =
        layers.foldl Record.merge sofar.fields := by
    intro layers
    induction layers with
    | nil => exact fun sofar hsofar => ⟨hsofar, rfl⟩
    | cons values layers ih =>
      intro sofar hsofar
      have hnext := ih (Value.merge sofar (.record values)) (Value.isRecord_merge hsofar rfl)
      rwa [Value.fields_merge hsofar rfl] at hnext
  exact hfold _ (.record []) rfl

theorem snapshot_of_not_isFixed (first : Environment) (h : history.isFixed = false) :
    history.snapshot first = environment first history := by
  rw [snapshot, untilRead_of_not_isFixed h]

/-- a read, and what else happens once something was read, leaves the layers as they are until the next change -/
theorem layers_concat (first : Environment) (hfixed : (history.isFixed || event.isRead) = true)
    (h : event.isChange = false) : layers first (history ++ [event]) = history.layers first := by
  have hprogrammatic : programmatic (history ++ [event]) = history.programmatic := by
    cases event with
    | set values => exact nomatch h
    | reset => exact nomatch h
    | _ => exact programmatic_concat rfl
  rw [layers, layers, hprogrammatic, snapshot, untilRead_concat hfixed h, snapshot]

end

/-- **The layers are joined exactly when something was read since the last change**, and then they are those of the
history. -/
theorem run_eq (start : Settings) (history : History) :
    run start history = ⟨environment start.environment history, history.programmatic,
      if history.isFixed then some (history.layers start.environment) else none⟩ := by
  induction history using List.reverseRecOn with
  | nil => rfl
  | append_singleton history event ih =>
    rw [run_concat, ih, environment_concat]
    cases event with
    | replace env =>
      rw [programmatic_concat rfl, isFixed_concat rfl]
      cases hfixed : isFixed history with
      | false => rfl
      | true =>
        rw [layers_concat _ (by simp [hfixed]) rfl]
        rfl
    | set values =>
      rw [programmatic_concat rfl, isFixed_change rfl]
      rfl
    | reset =>
      rw [programmatic_reset, isFixed_change rfl]
      rfl
    | read =>
      rw [programmatic_concat rfl, isFixed_concat rfl, layers_concat _ (by simp [Event.isRead]) rfl]
      cases hfixed : isFixed history with
      | false =>
        rw [layers, snapshot_of_not_isFixed _ hfixed]
        rfl
      | true => rfl

/-- **Whatever the history, the next read answers from its layers.** -/
theorem record_run (start : Settings) (history : History) :
    (run start history).record = history.layers start.environment := by
  rw [run_eq]
  cases hfixed : isFixed history with
  | false =>
    rw [layers, snapshot_of_not_isFixed _ hfixed]
    rfl
  | true => rfl

/-! ## What makes no difference -/

/-- **Until the next change nothing makes a difference to what is read**: no other read, and no other environment. -/
theorem layers_between (first : Environment) (history between : History)
    (hbetween : ∀ event ∈ between, event.isChange = false) :
    layers first (history ++ .read :: between) = layers first history ∧
      isFixed (history ++ .read :: between) = true := by
  induction between using List.reverseRecOn with
  | nil =>
    rw [layers_concat first (by simp [Event.isRead]) rfl, isFixed_concat rfl]
    simp [Event.isRead]
  | append_singleton between event ih =>
    obtain ⟨hlayers, hfixed⟩ := ih fun e he => hbetween e (List.mem_append_left _ he)
    have hquiet := hbetween event (List.mem_append_right _ List.mem_cons_self)
    rw [← List.cons_append, ← List.append_assoc, layers_concat first (by simp [hfixed]) hquiet, isFixed_concat hquiet]
    simp [hlayers, hfixed]

/-- the settings without what was kept of the layers -/
def forget (s : Settings) : Settings := { s with joined := none }

theorem forget_apply (event : Event) (s : Settings) : forget (event.apply s) = forget (event.apply (forget s)) := by
  cases event <;> rfl

theorem apply_forget_of_isChange {event : Event} (h : event.isChange = true) (s : Settings) :
    event.apply (forget s) = event.apply s := by
  cases event with
  | set values => rfl
  | reset => rfl
  | _ => exact nomatch h

/-- settings that differ in what was kept of the layers are the same behind the next change -/
theorem foldl_apply_eq {later : History} (h : later.any Event.isChange = true) {s t : Settings}
    (hst : forget s = forget t) : later.foldl Event.apply s = later.foldl Event.apply t := by
  induction later generalizing s t with
  | nil => exact nomatch h
  | cons event later ih =>
    rw [List.foldl_cons, List.foldl_cons]
    cases hchange : event.isChange with
    | true => rw [← apply_forget_of_isChange hchange s, hst, apply_forget_of_isChange hchange]
    | false =>
      rw [List.any_cons, hchange, Bool.false_or] at h
      apply ih h
      rw [forget_apply, hst, ← forget_apply]

/-- **A read makes no difference to what is read later**, if it is not the first since the last change, or if there is
a change before what is read later. -/
theorem layers_skip_read (first : Environment) (history later : History)
    (h : isFixed history = true ∨ later.any Event.isChange = true) :
    layers first (history ++ .read :: later) = layers first (history ++ later) := by
  have hrecord : ∀ history, layers first history = (run (.initial first) history).record := fun history =>
    (record_run (.initial first) history).symm
  rw [hrecord, hrecord, run_append, run_append, List.foldl_cons]
  rcases h with hfixed | hchange
  · -- what is joined already is what a read joins
    have hsame : Event.read.apply (run (.initial first) history) = run (.initial first) history := by
      rw [run_eq, if_pos hfixed]
      rfl
    rw [hsame]
  · have hforget : forget (Event.read.apply (run (.initial first) history)) = forget (run (.initial first) history) :=
      rfl
    rw [foldl_apply_eq hchange hforget]

end History

end SliceParser.Config
