/-
WRITES at dotted paths: what a record holds behind one, at every other path.

- `Extends`: a dotted path goes on behind another one. `prefix_splitPath_iff`: that is so exactly when the names of the
  one begin with all names of the other, and so paths are unrelated when they differ and none extends the other
  (`unrelated_splitPath_iff`).
- `getPath?_setPath_append`: behind its path a write is found as the value it wrote. `getPath?_setPath_front`: on its way
  it leaves records.
- `setPath_setPath`: **of two writes at one path the second stands.**
- `writes_are_lawful`: **a write of a scalar is found at its path, with nothing behind it, records in front of it, and
  everything else as it was.**
-/
import SliceParser.Proofs.Config.Alike

namespace SliceParser.Config

/-! ## Dotted paths -/

/-- a dotted path goes on behind another one -/
def Extends (longer path : Units) : Prop := path ++ [0x2E] <+: longer

instance (longer path : Units) : Decidable (Extends longer path) :=
  inferInstanceAs (Decidable (path ++ [0x2E] <+: longer))

theorem splitPath_eq_splitOn (us : Units) : splitPath us = us.splitOn 0x2E := by
  induction us with
  | nil => rfl
  | cons u us ih =>
    rw [splitPath, List.splitOn_cons_eq_if_modifyHead, ← ih]
    by_cases hdot : u = 0x2E
    · simp [hdot]
    · cases hpath : splitPath us with
      | nil => exact absurd hpath (splitPath_ne_nil us)
      | cons name path => simp [hdot]

theorem splitPath_append (path more : Units) : splitPath (path ++ 0x2E :: more) = splitPath path ++ splitPath more := by
  simp only [splitPath_eq_splitOn, List.splitOn_append_cons_self]

theorem intercalate_append {α : Type} {dot : List α} {names others : List (List α)} (h : names ≠ [])
    (hothers : others ≠ []) :
    dot.intercalate (names ++ others) = dot.intercalate names ++ dot ++ dot.intercalate others := by
  induction names with
  | nil => exact absurd rfl h
  | cons name names ih =>
    by_cases hnames : names = []
    · simp [hnames, List.intercalate_cons_of_ne_nil hothers]
    · rw [List.cons_append, List.intercalate_cons_of_ne_nil (List.append_ne_nil_of_left_ne_nil hnames _), ih hnames,
        List.intercalate_cons_of_ne_nil hnames]
      simp

/-- the names of a path begin with all names of another one exactly when it is that path or extends it -/
theorem prefix_splitPath_iff {path other : Units} :
    splitPath path <+: splitPath other ↔ other = path ∨ Extends other path := by
  have hjoin : ∀ us : Units, [0x2E].intercalate (splitPath us) = us := fun us => by
    rw [splitPath_eq_splitOn, List.intercalate_splitOn]
  constructor
  · rintro ⟨rest, hrest⟩
    have hother := congrArg [0x2E].intercalate hrest
    rw [hjoin] at hother
    by_cases hnil : rest = []
    · rw [hnil, List.append_nil, hjoin] at hother
      exact Or.inl hother.symm
    · rw [intercalate_append (splitPath_ne_nil path) hnil, hjoin] at hother
      exact Or.inr ⟨_, hother⟩
  · rintro (rfl | ⟨more, rfl⟩)
    · exact List.prefix_rfl
    · rw [List.append_assoc, List.singleton_append, splitPath_append]
      exact List.prefix_append _ _

theorem unrelated_splitPath_iff {path other : Units} :
    Unrelated (splitPath path) (splitPath other) ↔ other ≠ path ∧ ¬ Extends other path ∧ ¬ Extends path other := by
  rw [Unrelated, prefix_splitPath_iff, prefix_splitPath_iff]
  grind

/-! ## Writing -/

namespace Record

/-- behind its path a write is found as the value it wrote -/
theorem getPath?_setPath_append {path : Path} (h : path ≠ []) (rest : Path) (value : Value) (record : Record) :
    Value.getPath? (path ++ rest) (.record (setPath value path record)) = Value.getPath? rest value := by
  rw [Value.getPath?_append, Value.getPath?_of_ownPath? (ownPath?_setPath h value record), Option.bind_some]

/-- on its way a write leaves records -/
theorem getPath?_setPath_front {rest : Path} (h : rest ≠ []) (front : Path) (value : Value) (record : Record) :
    ∃ fields, Value.getPath? front (.record (setPath value (front ++ rest) record)) = some (.record fields) := by
  induction front generalizing record with
  | nil => exact ⟨_, rfl⟩
  | cons name front ih =>
    have hne : front ++ rest ≠ [] := List.append_ne_nil_of_right_ne_nil front h
    obtain ⟨fields, hfields⟩ := ih (record.under name)
    refine ⟨fields, ?_⟩
    have hinner : get? name (setPath value (name :: (front ++ rest)) record) =
        some (.record (setPath value (front ++ rest) (record.under name))) := by
      rw [setPath_cons value name hne, get?_insert, if_pos rfl]
    rw [List.cons_append, Value.getPath?_cons rfl, Value.property?_of_get? hinner, Option.bind_some, hfields]

theorem insert_insert (name : Units) (first second : Value) (record : Record) :
    insert name second (insert name first record) = insert name second record := by
  induction record with
  | nil => simp [insert]
  | cons field rest ih =>
    obtain ⟨other, old⟩ := field
    by_cases h : name = other
    · simp [insert, h]
    · simp [insert, h, ih]

/-- **Of two writes at one path the second stands.** -/
theorem setPath_setPath (first second : Value) (path : Path) (record : Record) :
    setPath second path (setPath first path record) = setPath second path record := by
  induction path generalizing record with
  | nil => rfl
  | cons name path ih =>
    by_cases hpath : path = []
    · subst hpath
      exact insert_insert name first second record
    · rw [setPath_cons first name hpath, setPath_cons second name hpath, setPath_cons second name hpath, under_insert,
        if_pos rfl, Value.fields_object, ih, insert_insert]

end Record

/-! ## Laws -/

/-- what is read in a record after a scalar has been written at a dotted path, and how it was before; elsewhere means
at paths of free names -/
structure Written (scalar : Value) (path : Units) (before after : Record) : Prop where
  found : Value.getPath? (splitPath path) (.record after) = some scalar
  behind : ∀ other, Extends other path → Value.getPath? (splitPath other) (.record after) = none
  inFront : ∀ other, Extends path other →
    ∃ fields, Value.getPath? (splitPath other) (.record after) = some (.record fields)
  elsewhere : ∀ other, (∀ name ∈ splitPath other, IsFree name) → other ≠ path → ¬ Extends other path →
    ¬ Extends path other →
    Value.getPath? (splitPath other) (.record after) = Value.getPath? (splitPath other) (.record before)

/-- **Writes are lawful**, at paths that show no parent and where no record was given one: the scalar is found at its path,
with nothing behind it, records in front of it and all else as it was, and of two writes at one path the second stands.
No record is given a parent, and plain ones stay plain. -/
theorem writes_are_lawful {scalar : Value} (hscalar : scalar.IsLeaf) (path : Units)
    (hpath : parentName ∉ splitPath path) (record : Record) (hrecord : (Value.record record).Rooted) :
    Written scalar path record (record.setPath scalar (splitPath path)) ∧
    (∀ first : Value, (record.setPath first (splitPath path)).setPath scalar (splitPath path) =
      record.setPath scalar (splitPath path)) ∧
    (Value.record (record.setPath scalar (splitPath path))).Rooted ∧
    ((Value.record record).Plain → (Value.record (record.setPath scalar (splitPath path))).Plain) := by
  have hne := splitPath_ne_nil path
  have hafter := Record.rooted_setPath (.leaf hscalar) (splitPath path) hrecord
  refine ⟨⟨Value.getPath?_of_ownPath? (Record.ownPath?_setPath hne scalar record), ?_, ?_, ?_⟩, fun first =>
    Record.setPath_setPath first scalar (splitPath path) record, hafter, Record.plain_setPath (.leaf hscalar) hpath⟩
  · rintro other ⟨more, rfl⟩
    rw [List.append_assoc, List.singleton_append, splitPath_append, Record.getPath?_setPath_append hne]
    cases hmore : splitPath more with
    | nil => exact absurd hmore (splitPath_ne_nil more)
    | cons name rest => exact Value.getPath?_of_isLeaf hscalar name rest
  · rintro other ⟨more, rfl⟩
    rw [List.append_assoc, List.singleton_append, splitPath_append]
    exact Record.getPath?_setPath_front (splitPath_ne_nil more) (splitPath other) scalar record
  · intro other hfree hpath hbehind hfront
    rw [Value.getPath?_eq_ownPath? hfree hafter, Value.getPath?_eq_ownPath? hfree hrecord]
    exact Record.ownPath?_setPath_of_unrelated (unrelated_splitPath_iff.2 ⟨hpath, hbehind, hfront⟩) scalar record

/-- the path leads through a scalar and has a name of no letters; beside the scalar there is another one, which stays -/
theorem writes_are_lawful_through_scalar :
    let inner : Record := [(.ofString "width", .null), (.ofString "color", .bool true)]
    let record : Record := [(.ofString "trace", .record inner)]
    let path : Units := .ofString "trace.width..max"
    let after : Record := record.setPath (.bool false) (splitPath path)
    Value.IsLeaf (.bool false) ∧ parentName ∉ splitPath path ∧ (Value.record record).Rooted ∧
    Value.getPath? (splitPath (.ofString "trace.width")) (.record record) = some .null ∧
    Value.getPath? (splitPath path) (.record after) = some (.bool false) ∧
    Value.getPath? (splitPath (.ofString "trace.width..max.")) (.record after) = none ∧
    (∃ fields, Value.getPath? (splitPath (.ofString "trace.width")) (.record after) = some (.record fields)) ∧
    Value.getPath? (splitPath (.ofString "trace.color")) (.record after) = some (.bool true) ∧
    Record.setPath (.bool false) (splitPath path) (record.setPath .null (splitPath path)) = after := by
  intro inner record path after
  have hscalar : Value.IsLeaf (.bool false) := trivial
  have hnull : Value.IsLeaf .null := trivial
  have hcolor : Value.IsLeaf (.bool true) := trivial
  have hpath : parentName ∉ splitPath path := by decide +kernel
  have hinner : (Value.record inner).Rooted :=
    Record.rooted_insert (.leaf hcolor) (.ofString "color")
      (Record.rooted_insert (.leaf hnull) (.ofString "width") Value.plain_nil.rooted)
  have hrecord : (Value.record record).Rooted := Record.rooted_insert hinner (.ofString "trace") Value.plain_nil.rooted
  obtain ⟨hwritten, htwice, -⟩ := writes_are_lawful hscalar path hpath record hrecord
  have hcolor : Value.getPath? (splitPath (.ofString "trace.color")) (.record after) =
      Value.getPath? (splitPath (.ofString "trace.color")) (.record record) :=
    hwritten.elsewhere _ (by decide +kernel) (by decide) (by decide) (by decide)
  exact ⟨hscalar, hpath, hrecord, rfl, hwritten.found, hwritten.behind _ (by decide), hwritten.inFront _ (by decide),
    hcolor.trans rfl, htwice .null⟩

end SliceParser.Config
