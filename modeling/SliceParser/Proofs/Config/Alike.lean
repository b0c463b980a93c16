/-
THE SAME RECORD but for the order of its names.

- `Value.Alike`: the same value but for the order of names, in records at every depth. `alike_object_iff`: of records,
  it says that under each name they have nothing, or values that are alike.
- What is alike answers alike at every path (`Alike.getPath?`), also where it inherits the answer, and stays alike when it
  is written to (`alike_setPath`) or, if it is plain, laid over the same value (`Alike.merge`).
- `setPath_comm`: **writes at unrelated paths can be made in either order**, also where they go on in the same record, or
  put one in the place of the same scalar.
-/
import SliceParser.Proofs.Config.Merge

namespace SliceParser.Config

/-! ## The same but for the order of names -/

namespace Value

/-- the same value, with the names of records in any order -/
inductive Alike : Value → Value → Prop
  | refl (value : Value) : Alike value value
  | object {a b : Record} {parent : Value} :
      (∀ name, (Record.get? name a).isSome = (Record.get? name b).isSome) →
      (∀ name v w, Record.get? name a = some v → Record.get? name b = some w → Alike v w) →
      Alike (.object a parent) (.object b parent)

theorem rel_alike_refl (found : Option Value) : Option.Rel Alike found found := by
  cases found with
  | none => exact .none
  | some value => exact .some (.refl value)

theorem rel_alike_cases {found found' : Option Value} (h : Option.Rel Alike found found') :
    (found = none ∧ found' = none) ∨ ∃ v w, found = some v ∧ found' = some w ∧ Alike v w := by
  cases h with
  | none => exact Or.inl ⟨rfl, rfl⟩
  | some hvalues => exact Or.inr ⟨_, _, rfl, rfl, hvalues⟩

/-- under each name alike records have nothing, or values that are alike -/
theorem alike_object_iff {a b : Record} {parent : Value} :
    Alike (.object a parent) (.object b parent) ↔
      ∀ name, Option.Rel Alike (Record.get? name a) (Record.get? name b) := by
  constructor
  · intro h name
    cases h with
    | refl => exact rel_alike_refl _
    | object hnames hvalues =>
      have hname := hnames name
      cases ha : Record.get? name a <;> cases hb : Record.get? name b <;> simp [ha, hb] at hname
      · exact .none
      · exact .some (hvalues name _ _ ha hb)
  · intro h
    refine .object ?_ ?_
    · intro name
      rcases rel_alike_cases (h name) with ⟨ha, hb⟩ | ⟨v, w, ha, hb, -⟩ <;> simp [ha, hb]
    · intro name v w hv hw
      have hname := h name
      rw [hv, hw] at hname
      cases hname with
      | some hvalues => exact hvalues

namespace Alike

theorem trans {a b c : Value} (hab : Alike a b) (hbc : Alike b c) : Alike a c := by
  induction hab generalizing c with
  | refl => exact hbc
  | object hnames hvalues ih =>
    cases hbc with
    | refl => exact .object hnames hvalues
    | object hnames' hvalues' =>
      refine .object (fun name => (hnames name).trans (hnames' name)) ?_
      intro name v w hv hw
      have hsome := hnames name
      rw [hv] at hsome
      obtain ⟨x, hx⟩ := Option.isSome_iff_exists.1 hsome.symm
      exact ih name v x hv hx (hvalues' name x w hx hw)

theorem fields {v w : Value} (h : Alike v w) : Alike (.record v.fields) (.record w.fields) := by
  cases h with
  | refl => exact .refl _
  | object hnames hvalues => exact .object hnames hvalues

/-! ## Reading -/

/-- what is alike has the same parent, and so inherits the same -/
theorem property? {a b : Record} {parent : Value} (h : Alike (.object a parent) (.object b parent)) (name : Units) :
    Option.Rel Alike (Value.property? name (.object a parent)) (Value.property? name (.object b parent)) := by
  rcases rel_alike_cases (alike_object_iff.1 h name) with ⟨ha, hb⟩ | ⟨v, w, ha, hb, hvalue⟩
  · have hsame : Value.property? name (.object a parent) = Value.property? name (.object b parent) := by
      simp only [Value.property?, showsParent, held?, ha, hb, Option.none_or, reachesRoot, Value.parent]
    rw [hsame]
    exact rel_alike_refl _
  · rw [property?_of_get? ha, property?_of_get? hb]
    exact .some hvalue

theorem getPath? {v w : Value} (h : Alike v w) (path : Path) :
    Option.Rel Alike (Value.getPath? path v) (Value.getPath? path w) := by
  induction path generalizing v w with
  | nil => exact .some h
  | cons name path ih =>
    cases h with
    | refl => exact rel_alike_refl _
    | @object a b parent hnames hvalues =>
      rw [getPath?_cons rfl, getPath?_cons rfl]
      rcases rel_alike_cases (property? (.object hnames hvalues) name) with ⟨ha, hb⟩ | ⟨v, w, ha, hb, hvalue⟩
      · rw [ha, hb]
        exact .none
      · rw [ha, hb]
        exact ih hvalue

theorem isTruthy_eq {v w : Value} (h : Alike v w) : v.isTruthy = w.isTruthy := by
  cases h <;> rfl

/-! ## Merging -/

/-- what is alike and plain stays alike when it is laid over the same value -/
theorem merge {v w : Value} (h : Alike v w) (hv : v.Plain) (hw : w.Plain) (lower : Value) :
    Alike (Value.merge lower v) (Value.merge lower w) := by
  induction h generalizing lower with
  | refl => exact .refl _
  | @object a b parent hnames hvalues ih =>
    have hrecords : Alike (.object a parent) (.object b parent) := .object hnames hvalues
    cases hv with
    | leaf hleaf => exact hleaf.elim
    | record hnamed hplain =>
      obtain ⟨hnamed', hplain'⟩ := plain_record_iff.1 hw
      rw [merge_record hnamed, merge_record hnamed', alike_object_iff]
      intro name
      rw [get?_fields_merge hnamed, get?_fields_merge hnamed']
      rcases rel_alike_cases (alike_object_iff.1 hrecords name) with ⟨ha, hb⟩ | ⟨v, w, ha, hb, hvalue⟩
      · rw [ha, hb]
        exact rel_alike_refl _
      · rw [ha, hb]
        cases Record.get? name lower.fields with
        | none => exact .some hvalue
        | some old =>
          dsimp only
          rw [laidOver_some, laidOver_some]
          exact .some (ih name v w ha hb (hplain name v ha) (hplain' name w hb) old)

end Alike

end Value

open Value (Alike alike_object_iff rel_alike_refl rel_alike_cases)

/-! ## Writing -/

namespace Record

variable {a b record : Record}

theorem alike_insert {v w : Value} (name : Units) (hvalue : Alike v w) (h : Alike (.record a) (.record b)) :
    Alike (.record (insert name v a)) (.record (insert name w b)) := by
  rw [alike_object_iff] at h ⊢
  intro other
  rw [get?_insert, get?_insert]
  split_ifs
  · exact .some hvalue
  · exact h other

theorem alike_under (name : Units) (h : Alike (.record a) (.record b)) :
    Alike (.record (under name a)) (.record (under name b)) := by
  unfold under
  rcases rel_alike_cases (alike_object_iff.1 h name) with ⟨ha, hb⟩ | ⟨v, w, ha, hb, hvalue⟩
  · rw [ha, hb]
    exact .refl _
  · rw [ha, hb]
    exact hvalue.fields

theorem alike_setPath (value : Value) (path : Path) (h : Alike (.record a) (.record b)) :
    Alike (.record (setPath value path a)) (.record (setPath value path b)) := by
  induction path generalizing a b with
  | nil => exact h
  | cons name path ih =>
    by_cases hpath : path = []
    · subst hpath
      exact alike_insert name (.refl value) h
    · rw [setPath_cons value name hpath, setPath_cons value name hpath]
      exact alike_insert name (ih (alike_under name h)) h

theorem under_insert (name other : Units) (value : Value) (record : Record) :
    under other (insert name value record) = if other = name then value.fields else under other record := by
  unfold under
  rw [get?_insert]
  split_ifs <;> rfl

/-- a write changes what stands under the first name of its path, and looks at nothing else -/
theorem exists_setPath_eq (value : Value) (name : Units) (path : Path) :
    ∃ f : Record → Value, ∀ record, setPath value (name :: path) record = insert name (f (under name record)) record := by
  by_cases hpath : path = []
  · subst hpath
    exact ⟨fun _ => value, fun _ => rfl⟩
  · exact ⟨fun inner => .record (setPath value path inner), setPath_cons value name hpath⟩

/-- **Writes at unrelated paths can be made in either order.** -/
theorem setPath_comm {p q : Path} (h : Unrelated p q) (v w : Value) (record : Record) :
    Alike (.record (setPath w q (setPath v p record))) (.record (setPath v p (setPath w q record))) := by
  induction p generalizing q record with
  | nil => exact absurd rfl h.ne_nil
  | cons name p ih =>
    cases q with
    | nil => exact absurd rfl h.symm.ne_nil
    | cons other q =>
      by_cases hname : name = other
      · subst hname
        -- both go on under the same name, at paths that are unrelated as well
        have hrest := h.of_cons
        simp only [setPath_cons _ name hrest.ne_nil, setPath_cons _ name hrest.symm.ne_nil, under_insert, if_pos,
          Value.fields_object]
        rw [alike_object_iff]
        intro field
        simp only [get?_insert]
        split_ifs
        · exact .some (ih hrest _)
        · exact rel_alike_refl _
      · obtain ⟨f, hf⟩ := exists_setPath_eq v name p
        obtain ⟨g, hg⟩ := exists_setPath_eq w other q
        rw [hf, hg, hg, hf, under_insert, under_insert, if_neg hname, if_neg (Ne.symm hname), alike_object_iff]
        intro field
        simp only [get?_insert]
        split_ifs with hother hfield
        · exact absurd (hfield.symm.trans hother) hname
        · exact rel_alike_refl _
        · exact rel_alike_refl _
        · exact rel_alike_refl _

end Record

end SliceParser.Config
