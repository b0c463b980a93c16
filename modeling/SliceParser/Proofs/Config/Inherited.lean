/-
OWN FIELDS AND INHERITED ONES: where a read finds what it answers.

- `Value.IsLeaf`: a value that is no record.
- `Value.ownPath?`: what is found at a path through fields that records have themselves. `getPath?_of_ownPath?`: **a read
  finds that too**, whatever the records inherit.
- `IsFree`: a name that nothing is inherited under from the start. `Value.Rooted`: no record in a value was given a
  parent. `getPath?_eq_ownPath?`: **in such a value, a read at free names finds nothing else.**
-/
import SliceParser.Config.Settings

namespace SliceParser.Config

/-- nothing is inherited under the name, unless a record was given a parent -/
def IsFree (name : Units) : Prop := name ≠ parentName ∧ name ∉ builtinNames

instance (name : Units) : Decidable (IsFree name) :=
  inferInstanceAs (Decidable (name ≠ parentName ∧ name ∉ builtinNames))

namespace Value

/-- a value that is not a record -/
def IsLeaf : Value → Prop
  | .object .. => False
  | .root => False
  | _ => True

theorem IsLeaf.isRecord_eq {value : Value} (h : value.IsLeaf) : value.isRecord = false := by
  cases value with
  | object fields parent => exact h.elim
  | root => exact h.elim
  | _ => rfl

theorem IsLeaf.fields_eq {value : Value} (h : value.IsLeaf) : value.fields = [] := by
  cases value with
  | object fields parent => exact h.elim
  | _ => rfl

theorem isLeaf_or_isRecord (value : Value) : value.IsLeaf ∨ value.isRecord = true := by
  cases value with
  | object fields parent => exact Or.inr rfl
  | root => exact Or.inr rfl
  | _ => exact Or.inl trivial

/-! ## One name -/

/-- a field of the record itself comes before anything that is inherited -/
theorem property?_of_get? {name : Units} {fields : Record} {found : Value} (h : Record.get? name fields = some found)
    (parent : Value) : property? name (.object fields parent) = some found := by
  have hheld : held? name (.object fields parent) = some found := by rw [held?, h, Option.some_or]
  have hshown : showsParent name (.object fields parent) = false := by simp [showsParent, hheld]
  rw [property?, hshown, hheld]
  rfl

/-- under any name but that of its parent, a record inherits only what all of them inherit -/
theorem property?_record {name : Units} (h : name ≠ parentName) (fields : Record) :
    property? name (.record fields) =
      (Record.get? name fields).or (if name ∈ builtinNames then some (.builtin name) else none) := by
  have hshown : showsParent name (.record fields) = false := by simp [showsParent, h]
  rw [property?, hshown]
  rfl

theorem property?_of_isFree {name : Units} (h : IsFree name) (fields : Record) :
    property? name (.record fields) = Record.get? name fields := by
  rw [property?_record h.1, if_neg h.2, Option.or_none]

/-! ## Paths -/

/-- what is found at a path through fields that records have themselves -/
def ownPath? : Path → Value → Option Value
  | [], value => some value
  | name :: path, value => (Record.get? name value.fields).bind (ownPath? path)

theorem ownPath?_of_isLeaf {value : Value} (h : value.IsLeaf) (name : Units) (path : Path) :
    ownPath? (name :: path) value = none := by
  rw [ownPath?, h.fields_eq]
  rfl

theorem getPath?_cons {value : Value} (h : value.isRecord = true) (name : Units) (path : Path) :
    getPath? (name :: path) value = (value.property? name).bind (getPath? path) := by
  rw [getPath?, if_pos h]
  cases value.property? name <;> rfl

theorem getPath?_of_isLeaf {value : Value} (h : value.IsLeaf) (name : Units) (path : Path) :
    getPath? (name :: path) value = none := by
  rw [getPath?, h.isRecord_eq]
  rfl

theorem getPath?_append (front rest : Path) (value : Value) :
    getPath? (front ++ rest) value = (getPath? front value).bind (getPath? rest) := by
  induction front generalizing value with
  | nil => rfl
  | cons name front ih =>
    rw [List.cons_append]
    rcases value.isLeaf_or_isRecord with hleaf | hrecord
    · rw [getPath?_of_isLeaf hleaf, getPath?_of_isLeaf hleaf]
      rfl
    · rw [getPath?_cons hrecord, getPath?_cons hrecord]
      cases value.property? name with
      | none => rfl
      | some found => exact ih found

/-- **A read finds what records have themselves.** -/
theorem getPath?_of_ownPath? {path : Path} {value found : Value} (h : ownPath? path value = some found) :
    getPath? path value = some found := by
  induction path generalizing value with
  | nil => exact h
  | cons name path ih =>
    rw [ownPath?] at h
    obtain ⟨inner, hinner, hfound⟩ := Option.bind_eq_some_iff.1 h
    cases value with
    | object fields parent =>
      rw [fields_object] at hinner
      rw [getPath?_cons rfl, property?_of_get? hinner, Option.bind_some]
      exact ih hfound
    | _ => exact nomatch hinner

/-- no record in the value was given a parent -/
inductive Rooted : Value → Prop
  | leaf {value : Value} : value.IsLeaf → Rooted value
  | record {fields : Record} : (∀ name value, Record.get? name fields = some value → Rooted value) →
      Rooted (.record fields)

theorem rooted_record_iff {fields : Record} :
    (record fields).Rooted ↔ ∀ name value, Record.get? name fields = some value → value.Rooted := by
  constructor
  · intro h
    cases h with
    | leaf hleaf => exact hleaf.elim
    | record hfields => exact hfields
  · exact .record

theorem Rooted.fields {value : Value} (h : value.Rooted) : (Value.record value.fields).Rooted := by
  cases h with
  | leaf hleaf =>
    rw [hleaf.fields_eq]
    exact .record fun _ _ hnone => nomatch hnone
  | record hfields => exact .record hfields

theorem Rooted.of_ownPath? {value found : Value} (h : value.Rooted) {path : Path}
    (hpath : ownPath? path value = some found) : found.Rooted := by
  induction path generalizing value with
  | nil => exact Option.some.inj hpath ▸ h
  | cons name path ih =>
    obtain ⟨inner, hinner, hfound⟩ := Option.bind_eq_some_iff.1 hpath
    exact ih (rooted_record_iff.1 h.fields name inner hinner) hfound

/-- **Where no record was given a parent, a read at free names finds what records have themselves**, and nothing else. -/
theorem getPath?_eq_ownPath? {path : Path} (hfree : ∀ name ∈ path, IsFree name) {value : Value} (h : value.Rooted) :
    getPath? path value = ownPath? path value := by
  induction path generalizing value with
  | nil => rfl
  | cons name path ih =>
    cases h with
    | leaf hleaf => rw [getPath?_of_isLeaf hleaf, ownPath?_of_isLeaf hleaf]
    | @record fields hfields =>
      rw [getPath?_cons rfl, property?_of_isFree (hfree name List.mem_cons_self), ownPath?, fields_object]
      cases hname : Record.get? name fields with
      | none => rfl
      | some found =>
        exact ih (fun other hother => hfree other (List.mem_cons_of_mem _ hother)) (hfields name found hname)

end Value

end SliceParser.Config
