/-
MERGED LAYERS: what one value laid over another holds.

- `Value.laidOver`: a record over a record is merged with it, and anything else stands as it is.
- `Record.Named`: each name is held once, and none of them is `parentName`. `get?_fields_merge`: **with such names, a
  field of the upper layer is laid over that of the lower one, and the others stay.**
- `Value.Plain`: records with such names at every depth, none of which was given a parent. Writes at other names than
  `parentName` leave them plain (`plain_setPath`), and laying them over a value gives no record a parent (`rooted_merge`).
- `ownPath?_merge`: **what a plain layer has at a path is laid over what the lower one has there.**
- `nil_merge`, `merge_nil`, `merge_merge_self`: a layer without fields makes no difference above or below, and **a plain
  layer laid over twice is a layer laid over once**.
-/
import SliceParser.Proofs.Config.Paths

namespace SliceParser.Config

/-! ## One value over another -/

namespace Value

/-- a value of the upper layer over what the lower one has in its place, if anything -/
def laidOver (old? : Option Value) (new : Value) : Value :=
  match old? with
  | some old => if old.isRecord && new.isRecord then merge old new else new
  | none => new

theorem merge_of_isLeaf_left {lower : Value} (h : lower.IsLeaf) (upper : Value) : merge lower upper = upper := by
  cases upper with
  | object fields parent => rw [merge, h.isRecord_eq, if_neg Bool.false_ne_true]
  | root => rw [merge, h.isRecord_eq, if_neg Bool.false_ne_true]
  | _ => rfl

theorem merge_of_isLeaf_right {upper : Value} (h : upper.IsLeaf) (lower : Value) : merge lower upper = upper := by
  cases upper with
  | object fields parent => exact h.elim
  | root => exact h.elim
  | _ => rfl

theorem laidOver_some (old new : Value) : laidOver (some old) new = merge old new := by
  rcases old.isLeaf_or_isRecord with hold | hold
  · rw [merge_of_isLeaf_left hold, laidOver, hold.isRecord_eq]
    rfl
  · rcases new.isLeaf_or_isRecord with hnew | hnew
    · rw [merge_of_isLeaf_right hnew, laidOver, hnew.isRecord_eq, Bool.and_false]
      rfl
    · rw [laidOver, hold, hnew]
      rfl

theorem laidOver_of_isLeaf {new : Value} (h : new.IsLeaf) (old? : Option Value) : laidOver old? new = new := by
  cases old? with
  | none => rfl
  | some old => rw [laidOver_some, merge_of_isLeaf_right h]

/-- what is inherited from the start is no record, and is replaced as if there were nothing -/
theorem merge_property? {name : Units} (h : name ≠ parentName) (fields : Record) (new : Value) :
    merge (((record fields).property? name).getD .undefined) new = laidOver (Record.get? name fields) new := by
  rw [property?_record h]
  cases Record.get? name fields with
  | some old => rw [Option.some_or, Option.getD_some, laidOver_some]
  | none =>
    have hbuiltin : (builtin name).IsLeaf := trivial
    have hundefined : undefined.IsLeaf := trivial
    rw [Option.none_or]
    split_ifs
    · exact merge_of_isLeaf_left hbuiltin new
    · exact merge_of_isLeaf_left hundefined new

theorem assign_of_ne {name : Units} (h : name ≠ parentName) (fields : Record) (parent value : Value) :
    assign (.object fields parent) name value = .object (Record.insert name value fields) parent := by
  have hshown : showsParent name (.object fields parent) = false := by simp [showsParent, h]
  rw [assign, hshown, if_neg Bool.false_ne_true]

theorem mergeFields_cons {name : Units} (h : name ≠ parentName) (own : Record) (new : Value) (upper : Record) :
    mergeFields (.record own) ((name, new) :: upper) =
      mergeFields (.record (own.insert name (laidOver (Record.get? name own) new))) upper := by
  rw [mergeFields, merge_property? h, assign_of_ne h]

end Value

/-! ## One name -/

/-- each name is held once, and none of them shows a parent -/
structure Record.Named (record : Record) : Prop where
  nodup : (record.map Prod.fst).Nodup
  noParent : parentName ∉ record.map Prod.fst

namespace Record

theorem isSome_get?_iff {name : Units} {record : Record} :
    (get? name record).isSome = true ↔ name ∈ record.map Prod.fst := by
  induction record with
  | nil => simp [get?]
  | cons field rest ih =>
    obtain ⟨other, value⟩ := field
    by_cases h : name = other
    · simp [get?, h]
    · simp [get?, h, ih]

theorem get?_eq_none_iff {name : Units} {record : Record} : get? name record = none ↔ name ∉ record.map Prod.fst := by
  rw [← isSome_get?_iff, Bool.not_eq_true, Option.isSome_eq_false_iff, Option.isNone_iff_eq_none]

theorem named_nil : Named [] := ⟨List.nodup_nil, List.not_mem_nil⟩

theorem named_cons_iff {name : Units} {value : Value} {rest : Record} :
    Named ((name, value) :: rest) ↔ name ≠ parentName ∧ get? name rest = none ∧ Named rest := by
  rw [get?_eq_none_iff]
  constructor
  · rintro ⟨hnodup, hparent⟩
    rw [List.map_cons, List.nodup_cons] at hnodup
    rw [List.map_cons, List.mem_cons, not_or] at hparent
    exact ⟨Ne.symm hparent.1, hnodup.1, hnodup.2, hparent.2⟩
  · rintro ⟨hname, hnone, hnodup, hparent⟩
    refine ⟨List.nodup_cons.2 ⟨hnone, hnodup⟩, ?_⟩
    rw [List.map_cons, List.mem_cons, not_or]
    exact ⟨Ne.symm hname, hparent⟩

theorem map_fst_insert (name : Units) (value : Value) (record : Record) :
    (insert name value record).map Prod.fst =
      if name ∈ record.map Prod.fst then record.map Prod.fst else record.map Prod.fst ++ [name] := by
  induction record with
  | nil => rfl
  | cons field rest ih =>
    obtain ⟨other, old⟩ := field
    by_cases h : name = other
    · simp [insert, h]
    · by_cases hmem : name ∈ rest.map Prod.fst <;> simp_all [insert]

/-- a new name goes to the end -/
theorem insert_of_new {name : Units} {record : Record} (h : get? name record = none) (value : Value) :
    insert name value record = record ++ [(name, value)] := by
  induction record with
  | nil => rfl
  | cons field rest ih =>
    obtain ⟨other, old⟩ := field
    rw [get?] at h
    split_ifs at h with hname
    rw [insert, if_neg hname, ih h, List.cons_append]

/-- a field that is written as it was is no change -/
theorem insert_of_get? {name : Units} {record : Record} {value : Value} (h : get? name record = some value) :
    insert name value record = record := by
  induction record with
  | nil => exact nomatch h
  | cons field rest ih =>
    obtain ⟨other, old⟩ := field
    rw [get?] at h
    rw [insert]
    split_ifs at h ⊢ with hname
    · rw [hname, Option.some.inj h]
    · rw [ih h]

theorem named_insert {name : Units} (h : name ≠ parentName) (value : Value) {record : Record} (hnamed : Named record) :
    Named (insert name value record) := by
  obtain ⟨hnodup, hparent⟩ := hnamed
  constructor
  · rw [map_fst_insert]
    split_ifs with hmem
    · exact hnodup
    · exact List.nodup_append.2 ⟨hnodup, List.nodup_singleton name, by
        rintro a ha b hb rfl
        exact hmem (List.mem_singleton.1 hb ▸ ha)⟩
  · rw [map_fst_insert]
    split_ifs
    · exact hparent
    · rw [List.mem_append, List.mem_singleton, not_or]
      exact ⟨hparent, Ne.symm h⟩

end Record

namespace Value

/-- **A field of the upper layer is laid over that of the lower one, and the others stay.** -/
theorem get?_mergeFields {upper : Record} (h : upper.Named) (own : Record) :
    ∃ fields, mergeFields (.record own) upper = .record fields ∧
      ∀ name, Record.get? name fields = match Record.get? name upper with
        | some new => some (laidOver (Record.get? name own) new)
        | none => Record.get? name own := by
  induction upper generalizing own with
  | nil => exact ⟨own, rfl, fun _ => rfl⟩
  | cons field upper ih =>
    obtain ⟨other, new⟩ := field
    obtain ⟨hother, hnone, hrest⟩ := Record.named_cons_iff.1 h
    obtain ⟨fields, hfields, hget⟩ := ih hrest (own.insert other (laidOver (Record.get? other own) new))
    refine ⟨fields, (mergeFields_cons hother own new upper).trans hfields, ?_⟩
    intro name
    rw [hget, Record.get?_insert, Record.get?]
    by_cases hname : name = other
    · rw [hname, hnone, if_pos rfl, if_pos rfl]
    · rw [if_neg hname, if_neg hname]

theorem get?_fields_merge {upper : Record} (h : upper.Named) (lower : Value) (name : Units) :
    Record.get? name (merge lower (.record upper)).fields = match Record.get? name upper with
      | some new => some (laidOver (Record.get? name lower.fields) new)
      | none => Record.get? name lower.fields := by
  rcases lower.isLeaf_or_isRecord with hleaf | hrecord
  · rw [merge_of_isLeaf_left hleaf, hleaf.fields_eq, fields_object]
    cases Record.get? name upper <;> rfl
  · obtain ⟨fields, hfields, hget⟩ := get?_mergeFields h lower.fields
    rw [merge_of_isRecord hrecord, hfields]
    exact hget name

/-- what is merged with such a layer above has the parent that records have from the start -/
theorem merge_record {upper : Record} (h : upper.Named) (lower : Value) :
    merge lower (.record upper) = .record (merge lower (.record upper)).fields := by
  rcases lower.isLeaf_or_isRecord with hleaf | hrecord
  · rw [merge_of_isLeaf_left hleaf, fields_object]
  · obtain ⟨fields, hfields, -⟩ := get?_mergeFields h lower.fields
    rw [merge_of_isRecord hrecord, hfields, fields_object]

theorem isRecord_mergeFields {result : Value} (h : result.isRecord = true) (upper : Record) :
    (mergeFields result upper).isRecord = true := by
  induction upper generalizing result with
  | nil => exact h
  | cons field upper ih =>
    obtain ⟨name, new⟩ := field
    rw [mergeFields]
    apply ih
    cases result with
    | object fields parent =>
      rw [assign]
      split_ifs <;> rfl
    | root => rfl
    | _ => exact absurd h Bool.false_ne_true

theorem isRecord_merge {lower upper : Value} (hlower : lower.isRecord = true) (hupper : upper.isRecord = true) :
    (merge lower upper).isRecord = true := by
  cases upper with
  | object fields parent =>
    rw [merge_of_isRecord hlower]
    exact isRecord_mergeFields rfl fields
  | root =>
    rw [merge, if_pos hlower]
    rfl
  | _ => exact absurd hupper Bool.false_ne_true

/-! ## Plain records -/

/-- each record in the value holds its names once, none shows a parent, and none was given one; lists are not looked
into, as merging does not look into them either -/
inductive Plain : Value → Prop
  | leaf {value : Value} : value.IsLeaf → Plain value
  | record {fields : Record} : fields.Named →
      (∀ name value, Record.get? name fields = some value → Plain value) → Plain (.record fields)

theorem plain_record_iff {fields : Record} :
    (record fields).Plain ↔ fields.Named ∧ ∀ name value, Record.get? name fields = some value → value.Plain := by
  constructor
  · intro h
    cases h with
    | leaf hleaf => exact hleaf.elim
    | record hnamed hfields => exact ⟨hnamed, hfields⟩
  · rintro ⟨hnamed, hfields⟩
    exact .record hnamed hfields

theorem Plain.rooted {value : Value} (h : value.Plain) : value.Rooted := by
  induction h with
  | leaf hleaf => exact .leaf hleaf
  | record _ _ ih => exact .record ih

theorem plain_nil : (record []).Plain := .record Record.named_nil fun _ _ hnone => nomatch hnone

theorem Plain.fields {value : Value} (h : value.Plain) : (Value.record value.fields).Plain := by
  cases h with
  | leaf hleaf =>
    rw [hleaf.fields_eq]
    exact plain_nil
  | record hnamed hfields => exact .record hnamed hfields

theorem Plain.of_ownPath? {value found : Value} (h : value.Plain) {path : Path}
    (hpath : ownPath? path value = some found) : found.Plain := by
  induction path generalizing value with
  | nil => exact Option.some.inj hpath ▸ h
  | cons name path ih =>
    obtain ⟨inner, hinner, hfound⟩ := Option.bind_eq_some_iff.1 hpath
    exact ih ((plain_record_iff.1 h.fields).2 name inner hinner) hfound

end Value

namespace Record

theorem plain_insert {name : Units} (hname : name ≠ parentName) {value : Value} (hvalue : value.Plain) {record : Record}
    (h : (Value.record record).Plain) : (Value.record (insert name value record)).Plain := by
  rw [Value.plain_record_iff] at h ⊢
  refine ⟨named_insert hname value h.1, ?_⟩
  intro other found hfound
  rw [get?_insert] at hfound
  split_ifs at hfound
  · exact Option.some.inj hfound ▸ hvalue
  · exact h.2 other found hfound

/-- a write that does not name a parent leaves records plain -/
theorem plain_setPath {value : Value} (hvalue : value.Plain) {path : Path} (hpath : parentName ∉ path) {record : Record}
    (h : (Value.record record).Plain) : (Value.record (setPath value path record)).Plain := by
  induction path generalizing record with
  | nil => exact h
  | cons name path ih =>
    rw [List.mem_cons, not_or] at hpath
    have hname : name ≠ parentName := Ne.symm hpath.1
    by_cases hnil : path = []
    · subst hnil
      exact plain_insert hname hvalue h
    · rw [setPath_cons value name hnil]
      refine plain_insert hname (ih hpath.2 ?_) h
      rw [under]
      cases hold : get? name record with
      | none => exact Value.plain_nil
      | some old => exact ((Value.plain_record_iff.1 h).2 name old hold).fields

end Record

namespace Value

/-! ## Paths -/

/-- **What a plain layer has at a path is laid over what the lower one has there.** -/
theorem ownPath?_merge {upper : Value} (hplain : upper.Plain) {path : Path} {new : Value}
    (h : ownPath? path upper = some new) (lower : Value) :
    ownPath? path (merge lower upper) = some (laidOver (ownPath? path lower) new) := by
  induction path generalizing lower upper with
  | nil =>
    obtain rfl : upper = new := Option.some.inj h
    rw [ownPath?, ownPath?, laidOver_some]
  | cons name path ih =>
    cases hplain with
    | leaf hleaf =>
      rw [ownPath?_of_isLeaf hleaf] at h
      exact absurd h.symm (Option.some_ne_none new)
    | @record upper hnamed hfields =>
      rw [ownPath?, fields_object] at h
      obtain ⟨value, hvalue, hnew⟩ := Option.bind_eq_some_iff.1 h
      rw [ownPath?, get?_fields_merge hnamed, hvalue, ownPath?]
      dsimp only
      rw [Option.bind_some]
      cases Record.get? name lower.fields with
      | some old => rw [laidOver_some, Option.bind_some, ih (hfields name value hvalue) hnew]
      | none => exact hnew

/-- a leaf of a plain layer stands as it is, whatever the lower layer has at its path -/
theorem ownPath?_merge_of_isLeaf {upper : Value} (hplain : upper.Plain) {path : Path} {leaf : Value}
    (hleaf : leaf.IsLeaf) (h : ownPath? path upper = some leaf) (lower : Value) :
    ownPath? path (merge lower upper) = some leaf := by
  rw [ownPath?_merge hplain h, laidOver_of_isLeaf hleaf]

/-- a plain layer gives no record a parent -/
theorem rooted_merge {upper : Value} (hplain : upper.Plain) {lower : Value} (h : lower.Rooted) :
    (merge lower upper).Rooted := by
  induction hplain generalizing lower with
  | leaf hleaf =>
    rw [merge_of_isLeaf_right hleaf]
    exact .leaf hleaf
  | @record upper hnamed hfields ih =>
    rw [merge_record hnamed]
    refine .record fun name found hfound => ?_
    rw [get?_fields_merge hnamed] at hfound
    have hlower := rooted_record_iff.1 h.fields name
    cases hname : Record.get? name upper with
    | none =>
      rw [hname] at hfound
      exact hlower found hfound
    | some new =>
      rw [hname] at hfound
      rw [← Option.some.inj hfound]
      cases hold : Record.get? name lower.fields with
      | none => exact (hfields name new hname).rooted
      | some old =>
        rw [laidOver_some]
        exact ih name new hname (hlower old hold)

/-! ## Layers that make no difference -/

theorem merge_nil (lower : Record) : merge (.record lower) (.record []) = .record lower := rfl

/-- new names go to the end, in their order -/
theorem mergeFields_of_new {upper : Record} (h : upper.Named) {own : Record}
    (hnew : ∀ name ∈ upper.map Prod.fst, Record.get? name own = none) :
    mergeFields (.record own) upper = .record (own ++ upper) := by
  induction upper generalizing own with
  | nil => rw [List.append_nil, mergeFields]
  | cons field upper ih =>
    obtain ⟨other, new⟩ := field
    obtain ⟨hother, hnone, hrest⟩ := Record.named_cons_iff.1 h
    have hown : Record.get? other own = none := hnew other (by simp)
    have hlater : ∀ name ∈ upper.map Prod.fst, Record.get? name (own.insert other new) = none := by
      intro name hname
      have hne : name ≠ other := by
        rintro rfl
        exact Record.get?_eq_none_iff.1 hnone hname
      rw [Record.get?_insert, if_neg hne]
      exact hnew name (List.mem_cons_of_mem _ hname)
    have hbehind : mergeFields (.record (own.insert other new)) upper = .record (own.insert other new ++ upper) :=
      ih hrest hlater
    rw [mergeFields_cons hother, hown, laidOver, hbehind, Record.insert_of_new hown, List.append_assoc,
      List.singleton_append]

theorem nil_merge {upper : Value} (h : upper.Plain) : merge (.record []) upper = upper := by
  cases h with
  | leaf hleaf => exact merge_of_isLeaf_right hleaf _
  | record hnamed _ =>
    rw [merge_of_isRecord rfl, fields_object, mergeFields_of_new hnamed fun _ _ => rfl, List.nil_append]

/-- fields that a layer does not change make no difference to where it is laid -/
theorem mergeFields_of_same {upper : Record} (h : upper.Named) {own : Record}
    (hsame : ∀ name new, Record.get? name upper = some new →
      ∃ old, Record.get? name own = some old ∧ merge old new = old) :
    mergeFields (.record own) upper = .record own := by
  induction upper with
  | nil => rw [mergeFields]
  | cons field upper ih =>
    obtain ⟨other, new⟩ := field
    obtain ⟨hother, hnone, hrest⟩ := Record.named_cons_iff.1 h
    obtain ⟨old, hold, hmerge⟩ := hsame other new (by simp [Record.get?])
    rw [mergeFields_cons hother, hold, laidOver_some, hmerge, Record.insert_of_get? hold]
    apply ih hrest
    intro name later hlater
    have hne : name ≠ other := by
      rintro rfl
      exact absurd (hlater.symm.trans hnone) (Option.some_ne_none later)
    exact hsame name later (by rwa [Record.get?, if_neg hne])

/-- **A plain layer laid over twice is a layer laid over once.** -/
theorem merge_merge_self {new : Value} (h : new.Plain) (old : Value) : merge (merge old new) new = merge old new := by
  induction h generalizing old with
  | leaf hleaf => simp only [merge_of_isLeaf_right hleaf]
  | @record upper hnamed _ ih =>
    rw [merge_record hnamed old, merge_of_isRecord rfl, fields_object]
    apply mergeFields_of_same hnamed
    intro name new hnew
    refine ⟨laidOver (Record.get? name old.fields) new, by rw [get?_fields_merge hnamed, hnew], ?_⟩
    cases Record.get? name old.fields with
    | some value =>
      rw [laidOver_some]
      exact ih name new hnew value
    | none =>
      have hundefined : undefined.IsLeaf := trivial
      have hself := ih name new hnew .undefined
      rwa [merge_of_isLeaf_left hundefined] at hself

end Value

end SliceParser.Config
