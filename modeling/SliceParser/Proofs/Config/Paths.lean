/-
PATHS in records: what is found behind a write, through fields that records have themselves.

- `Unrelated`: of two paths neither leads to the other, or through it.
- `Record.under`: the record that a path goes on in behind its first name. Reading and writing at a path of several
  names are reading and writing there (`ownPath?_under`, `setPath_cons`).
- `ownPath?_setPath`: **a write is found at its path.** `ownPath?_setPath_of_unrelated`: **it makes no difference at an
  unrelated path**, even where it puts a record in the place of what stood on the way.
- `rooted_setPath`: a write gives no record a parent.
-/
import SliceParser.Proofs.Config.Inherited
import Mathlib.Tactic

namespace SliceParser.Config

/-! ## Paths -/

/-- neither of the paths leads to the other, or through it -/
def Unrelated (p q : Path) : Prop := ¬ p <+: q ∧ ¬ q <+: p

instance (p q : Path) : Decidable (Unrelated p q) :=
  inferInstanceAs (Decidable (¬ p <+: q ∧ ¬ q <+: p))

theorem Unrelated.symm {p q : Path} (h : Unrelated p q) : Unrelated q p :=
  ⟨h.2, h.1⟩

theorem Unrelated.of_cons {name : Units} {p q : Path} (h : Unrelated (name :: p) (name :: q)) : Unrelated p q := by
  simpa only [Unrelated, List.cons_prefix_cons, true_and] using h

theorem Unrelated.ne_nil {p q : Path} (h : Unrelated p q) : p ≠ [] := by
  rintro rfl
  exact h.1 List.nil_prefix

theorem splitPath_ne_nil (us : Units) : splitPath us ≠ [] := by
  cases us with
  | nil => simp [splitPath]
  | cons u us =>
    unfold splitPath
    split_ifs
    · simp
    · split <;> simp

namespace Record

/-- the record under a name, or an empty one -/
def under (name : Units) (record : Record) : Record :=
  match Record.get? name record with
  | some value => value.fields
  | none => []

theorem ownPath?_under {path : Path} (h : path ≠ []) (name : Units) (record : Record) :
    Value.ownPath? path (.record (record.under name)) = Value.ownPath? (name :: path) (.record record) := by
  cases path with
  | nil => exact absurd rfl h
  | cons next path =>
    rw [Value.ownPath?, Value.ownPath?, Value.fields_object, Value.fields_object, under]
    cases Record.get? name record <;> rfl

/-! ## Writing -/

theorem setPath_cons (value : Value) (name : Units) {path : Path} (h : path ≠ []) (record : Record) :
    setPath value (name :: path) record = record.insert name (.record (setPath value path (record.under name))) := by
  cases path with
  | nil => exact absurd rfl h
  | cons next path => rfl

/-- what is found through a field that was written -/
theorem ownPath?_insert (name other : Units) (path : Path) (value : Value) (record : Record) :
    Value.ownPath? (other :: path) (.record (insert name value record)) =
      if other = name then Value.ownPath? path value else Value.ownPath? (other :: path) (.record record) := by
  rw [Value.ownPath?, Value.fields_object, get?_insert]
  split_ifs <;> rfl

/-- **A write is found at its path.** -/
theorem ownPath?_setPath {path : Path} (h : path ≠ []) (value : Value) (record : Record) :
    Value.ownPath? path (.record (setPath value path record)) = some value := by
  induction path generalizing record with
  | nil => exact absurd rfl h
  | cons name path ih =>
    by_cases hpath : path = []
    · subst hpath
      rw [setPath, ownPath?_insert, if_pos rfl, Value.ownPath?]
    · rw [setPath_cons value name hpath, ownPath?_insert, if_pos rfl, ih hpath]

/-- **A write makes no difference at an unrelated path.** -/
theorem ownPath?_setPath_of_unrelated {p q : Path} (h : Unrelated p q) (value : Value) (record : Record) :
    Value.ownPath? q (.record (setPath value p record)) = Value.ownPath? q (.record record) := by
  induction p generalizing q record with
  | nil => exact absurd rfl h.ne_nil
  | cons name p ih =>
    cases q with
    | nil => exact absurd rfl h.symm.ne_nil
    | cons other q =>
      by_cases hp : p = []
      · -- the write is at the first name, so the other path begins with another one
        subst hp
        have hname : other ≠ name := by
          rintro rfl
          exact h.1 ⟨q, rfl⟩
        rw [setPath, ownPath?_insert, if_neg hname]
      · rw [setPath_cons value name hp, ownPath?_insert]
        split_ifs with hname
        · subst hname
          have hrest := h.of_cons
          rw [ih hrest, ownPath?_under hrest.symm.ne_nil]
        · rfl

theorem rooted_insert {value : Value} (hvalue : value.Rooted) (name : Units) {record : Record}
    (h : (Value.record record).Rooted) : (Value.record (insert name value record)).Rooted := by
  rw [Value.rooted_record_iff] at h ⊢
  intro other found hfound
  rw [get?_insert] at hfound
  split_ifs at hfound
  · exact Option.some.inj hfound ▸ hvalue
  · exact h other found hfound

theorem rooted_under (name : Units) {record : Record} (h : (Value.record record).Rooted) :
    (Value.record (under name record)).Rooted := by
  rw [under]
  cases hname : get? name record with
  | none => exact .record fun _ _ hnone => nomatch hnone
  | some old => exact (Value.rooted_record_iff.1 h name old hname).fields

/-- a write gives no record a parent -/
theorem rooted_setPath {value : Value} (hvalue : value.Rooted) (path : Path) {record : Record}
    (h : (Value.record record).Rooted) : (Value.record (setPath value path record)).Rooted := by
  induction path generalizing record with
  | nil => exact h
  | cons name path ih =>
    by_cases hpath : path = []
    · subst hpath
      exact rooted_insert hvalue name h
    · rw [setPath_cons value name hpath]
      exact rooted_insert (ih (rooted_under name h)) name h

end Record

end SliceParser.Config
