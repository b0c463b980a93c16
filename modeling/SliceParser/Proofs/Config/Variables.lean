/-
VARIABLES of the environment: what each of them writes, and the layer that they make.

- `parentName_notMem_variablePath`: **no variable shows a parent by its path**, since the names of a path have no
  underscores in them.
- `variableValue_isLeaf`: a variable writes a leaf.
- `plain_environment`: so the variables make a plain record. Laid over anything, it leaves a record with the parent that
  records have from the start (`merge_environment`).
-/
import SliceParser.Proofs.Config.Merge

namespace SliceParser.Config

/-! ## Paths without underscores -/

theorem mem_of_mem_splitPath {us name : Units} (h : name ∈ splitPath us) {u : UInt16} (hu : u ∈ name) : u ∈ us := by
  induction us generalizing name with
  | nil =>
    rw [List.mem_singleton.1 h] at hu
    exact nomatch hu
  | cons w us ih =>
    rw [splitPath] at h
    split_ifs at h with hdot
    · rcases List.mem_cons.1 h with rfl | hlater
      · exact nomatch hu
      · exact List.mem_cons_of_mem _ (ih hlater hu)
    · cases hpath : splitPath us with
      | nil => exact absurd hpath (splitPath_ne_nil us)
      | cons first path =>
        rw [hpath] at h ih
        rcases List.mem_cons.1 h with rfl | hlater
        · rcases List.mem_cons.1 hu with rfl | hrest
          · exact List.mem_cons_self
          · exact List.mem_cons_of_mem _ (ih List.mem_cons_self hrest)
        · exact List.mem_cons_of_mem _ (ih (List.mem_cons_of_mem _ hlater) hu)

theorem underscore_notMem_dotted (us : Units) : 0x5F ∉ dotted us := by
  fun_induction dotted us with
  | case1 => exact List.not_mem_nil
  | case2 => decide
  | case3 u hu => simpa using Ne.symm hu
  | case4 rest ih => simpa using ih
  | case5 w rest hw ih => simpa using ih
  | case6 u w rest hu ih =>
    rw [List.mem_cons, not_or]
    exact ⟨Ne.symm hu, ih⟩

/-- **No variable shows a parent by its path.** -/
theorem parentName_notMem_variablePath {name : Units} {path : Path} (h : variablePath? name = some path) :
    parentName ∉ path := by
  have hunderscore : 0x5F ∈ parentName := by decide +kernel
  unfold variablePath? at h
  split_ifs at h
  rw [← Option.some.inj h]
  intro hmem
  exact underscore_notMem_dotted _ (mem_of_mem_splitPath hmem hunderscore)

theorem variablePath?_ne_nil {name : Units} {path : Path} (h : variablePath? name = some path) : path ≠ [] := by
  unfold variablePath? at h
  split_ifs at h
  rw [← Option.some.inj h]
  exact splitPath_ne_nil _

/-! ## What a variable writes -/

theorem variableValue_isLeaf (text : Units) : (variableValue text).IsLeaf := by
  unfold variableValue
  split_ifs <;> trivial

theorem setVariable_of_some {var : Units × Units} {path : Path} (h : variablePath? var.1 = some path)
    (record : Record) : setVariable record var = record.setPath (variableValue var.2) path := by
  rw [setVariable, h]

theorem setVariable_of_none {var : Units × Units} (h : variablePath? var.1 = none) (record : Record) :
    setVariable record var = record := by
  rw [setVariable, h]

theorem plain_setVariable (var : Units × Units) {record : Record} (h : (Value.record record).Plain) :
    (Value.record (setVariable record var)).Plain := by
  cases hvar : variablePath? var.1 with
  | none => rwa [setVariable_of_none hvar]
  | some path =>
    rw [setVariable_of_some hvar]
    exact Record.plain_setPath (.leaf (variableValue_isLeaf var.2)) (parentName_notMem_variablePath hvar) h

theorem plain_foldl_setVariable (env : Environment) {record : Record} (h : (Value.record record).Plain) :
    (Value.record (env.foldl setVariable record)).Plain := by
  induction env generalizing record with
  | nil => exact h
  | cons var env ih => exact ih (plain_setVariable var h)

/-- the variables make a plain record -/
theorem plain_environment (env : Environment) : (Value.record env.record).Plain :=
  plain_foldl_setVariable env Value.plain_nil

/-- laid over any layer, it leaves a record with the parent that records have from the start -/
theorem merge_environment (lower : Record) (env : Environment) :
    Value.merge (.record lower) (.record env.record) = .record (lower.merge env.record) :=
  Value.merge_record (Value.plain_record_iff.1 (plain_environment env)).1 (.record lower)

end SliceParser.Config
