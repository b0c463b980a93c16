/-
LAYERS, path by path: what a record laid over another one leaves to be found.

- `Decides`: how far a path leads in the upper layer decides what is found in both. It may lead to a value there, meet
  one that is no record on its way, or leave the layer at a name that is missing. `standing`: one of these is so of
  every path.
- `layers_decided_path_by_path`: **every lookup in merged layers is decided as `Decides` says**, a layer laid over twice
  is a layer laid over once, and one without fields makes no difference. That is so where the upper layer is plain, no
  record below was given a parent, and nothing is inherited under the names of the path.
- `parent_shows_through_merge`: the conditions on the upper layer and on the names cannot be left out. A field of its own
  under `parentName` is not laid over anything: it sets the parent of the merged record, or is lost.
-/
import SliceParser.Proofs.Config.Merge

namespace SliceParser.Config

/-! ## Paths -/

/-- what is found at a path when one layer is laid over another -/
inductive Decides (lower upper : Record) : Path → Option Value → Prop
  /-- the path leads to a value of the upper layer -/
  | present {path : Path} {new : Value} : Value.getPath? path (.record upper) = some new →
      Decides lower upper path (some (Value.laidOver (Value.getPath? path (.record lower)) new))
  /-- on its way it meets a value of the upper layer that is no record -/
  | blocked {front rest : Path} {leaf : Value} : rest ≠ [] → Value.getPath? front (.record upper) = some leaf →
      leaf.IsLeaf → Decides lower upper (front ++ rest) none
  /-- the upper layer lacks a name of it, and the lower layer has a record there too -/
  | missing {front rest : Path} {name : Units} {inner old : Value} :
      Value.getPath? front (.record upper) = some inner → inner.isRecord = true → inner.property? name = none →
      Value.getPath? front (.record lower) = some old → old.isRecord = true →
      Decides lower upper (front ++ name :: rest) (Value.getPath? (front ++ name :: rest) (.record lower))
  /-- the upper layer lacks a name of it, and its record took the place of whatever the lower layer has there -/
  | shadowed {front rest : Path} {name : Units} {inner : Value} :
      Value.getPath? front (.record upper) = some inner → inner.isRecord = true → inner.property? name = none →
      (∀ old, Value.getPath? front (.record lower) = some old → old.IsLeaf) →
      Decides lower upper (front ++ name :: rest) none

/-- how far a path leads: to a value, to one that is no record, or to a name that is missing -/
theorem standing (value : Value) (path : Path) :
    (∃ found, Value.getPath? path value = some found) ∨
    (∃ front rest leaf, path = front ++ rest ∧ rest ≠ [] ∧ Value.getPath? front value = some leaf ∧ leaf.IsLeaf) ∨
    (∃ front name rest inner, path = front ++ name :: rest ∧ Value.getPath? front value = some inner ∧
      inner.isRecord = true ∧ inner.property? name = none) := by
  induction path generalizing value with
  | nil => exact Or.inl ⟨value, rfl⟩
  | cons name path ih =>
    rcases value.isLeaf_or_isRecord with hleaf | hrecord
    · exact Or.inr (Or.inl ⟨[], name :: path, value, rfl, List.cons_ne_nil _ _, rfl, hleaf⟩)
    · cases hname : value.property? name with
      | none => exact Or.inr (Or.inr ⟨[], name, path, value, rfl, rfl, hrecord, hname⟩)
      | some next =>
        have hstep : ∀ front, Value.getPath? (name :: front) value = Value.getPath? front next := fun front => by
          rw [Value.getPath?_cons hrecord, hname, Option.bind_some]
        -- the path stands in what it goes on in as it does here
        rcases ih next with
          ⟨found, h⟩ | ⟨front, rest, leaf, rfl, hrest, h, hleaf⟩ | ⟨front, missing, rest, inner, rfl, h, hinner⟩
        · exact Or.inl ⟨found, (hstep path).trans h⟩
        · exact Or.inr (Or.inl ⟨name :: front, rest, leaf, rfl, hrest, (hstep front).trans h, hleaf⟩)
        · exact Or.inr (Or.inr ⟨name :: front, missing, rest, inner, rfl, (hstep front).trans h, hinner⟩)

/-- something is decided at every path -/
theorem Decides.exists (lower upper : Record) (path : Path) : ∃ found, Decides lower upper path found := by
  rcases standing (.record upper) path with
    ⟨new, hnew⟩ | ⟨front, rest, leaf, rfl, hrest, hfront, hleaf⟩ | ⟨front, name, rest, inner, rfl, hfront, hinner, hname⟩
  · exact ⟨_, .present hnew⟩
  · exact ⟨_, .blocked hrest hfront hleaf⟩
  · by_cases hold : ∃ old, Value.getPath? front (.record lower) = some old ∧ old.isRecord = true
    · obtain ⟨old, hold, hrecord⟩ := hold
      exact ⟨_, .missing hfront hinner hname hold hrecord⟩
    · refine ⟨_, .shadowed hfront hinner hname fun old hfound => ?_⟩
      exact old.isLeaf_or_isRecord.resolve_right fun hrecord => hold ⟨old, hfound, hrecord⟩

/-! ## Merged layers -/

section

variable {lower upper : Record} (hlower : (Value.record lower).Rooted) (hupper : (Value.record upper).Plain)

include hlower hupper

/-- what the upper layer has at a path of free names is laid over what the lower one has there -/
theorem getPath?_merge {path : Path} (hfree : ∀ name ∈ path, IsFree name) {new : Value}
    (h : Value.getPath? path (.record upper) = some new) :
    Value.getPath? path (Value.merge (.record lower) (.record upper)) =
      some (Value.laidOver (Value.getPath? path (.record lower)) new) := by
  rw [Value.getPath?_eq_ownPath? hfree hupper.rooted] at h
  rw [Value.getPath?_eq_ownPath? hfree hlower]
  exact Value.getPath?_of_ownPath? (Value.ownPath?_merge hupper h (.record lower))

/-- what is decided is what is found -/
theorem Decides.getPath?_eq {path : Path} {found : Option Value} (hfree : ∀ name ∈ path, IsFree name)
    (h : Decides lower upper path found) :
    Value.getPath? path (Value.merge (.record lower) (.record upper)) = found := by
  cases h with
  | present hnew => exact getPath?_merge hlower hupper hfree hnew
  | @blocked front rest leaf hrest hfront hleaf =>
    have hfound := getPath?_merge hlower hupper (fun name hname => hfree name (List.mem_append_left _ hname)) hfront
    rw [Value.getPath?_append, hfound, Value.laidOver_of_isLeaf hleaf, Option.bind_some]
    cases rest with
    | nil => exact absurd rfl hrest
    | cons name rest => exact Value.getPath?_of_isLeaf hleaf name rest
  | @missing front rest name inner old hfront hinner hname hold hrecord =>
    have hfreeFront : ∀ name ∈ front, IsFree name := fun name hname => hfree name (List.mem_append_left _ hname)
    have hfreeName : IsFree name := hfree name (List.mem_append_right _ List.mem_cons_self)
    have hfound := getPath?_merge hlower hupper hfreeFront hfront
    rw [hold, Value.laidOver_some] at hfound
    rw [Value.getPath?_append, Value.getPath?_append, hfound, hold, Option.bind_some, Option.bind_some]
    rw [Value.getPath?_eq_ownPath? hfreeFront hupper.rooted] at hfront
    rw [Value.getPath?_eq_ownPath? hfreeFront hlower] at hold
    -- both are records with nothing to inherit under the name, and it stands in the lower one alone
    cases hupper.of_ownPath? hfront with
    | leaf hleaf => exact nomatch hinner.symm.trans hleaf.isRecord_eq
    | @record fields hnamed hfields =>
      cases hlower.of_ownPath? hold with
      | leaf hleaf => exact nomatch hrecord.symm.trans hleaf.isRecord_eq
      | @record fields' hfields' =>
        rw [Value.property?_of_isFree hfreeName] at hname
        rw [Value.merge_record hnamed, Value.getPath?_cons rfl, Value.getPath?_cons rfl,
          Value.property?_of_isFree hfreeName, Value.property?_of_isFree hfreeName, Value.get?_fields_merge hnamed, hname,
          Value.fields_object]
  | @shadowed front rest name inner hfront hinner hname hold =>
    have hfound := getPath?_merge hlower hupper (fun name hname => hfree name (List.mem_append_left _ hname)) hfront
    have hover : Value.laidOver (Value.getPath? front (.record lower)) inner = inner := by
      cases hfront : Value.getPath? front (.record lower) with
      | none => rfl
      | some old => rw [Value.laidOver_some, Value.merge_of_isLeaf_left (hold old hfront)]
    rw [Value.getPath?_append, hfound, hover, Option.bind_some, Value.getPath?_cons hinner, hname]
    rfl

theorem decides_iff {path : Path} {found : Option Value} (hfree : ∀ name ∈ path, IsFree name) :
    Decides lower upper path found ↔
      Value.getPath? path (Value.merge (.record lower) (.record upper)) = found := by
  constructor
  · exact Decides.getPath?_eq hlower hupper hfree
  · rintro rfl
    obtain ⟨found, h⟩ := Decides.exists lower upper path
    rwa [h.getPath?_eq hlower hupper hfree]

end

/-! ## Lookups -/

/-- **Merged layers are decided path by path**, at any names as far as the upper layer has fields of its own there, and
another layer may be laid over them. Laying the same layer over again, or one without fields under or over another,
makes no difference. -/
theorem layers_decided_path_by_path {lower upper : Record} (hlower : (Value.record lower).Rooted)
    (hupper : (Value.record upper).Plain) :
    let merged := Value.merge (.record lower) (.record upper)
    (∀ path found, (∀ name ∈ path, IsFree name) →
      (Decides lower upper path found ↔ Value.getPath? path merged = found)) ∧
    (∀ path new, Value.ownPath? path (.record upper) = some new →
      Value.getPath? path merged = some (Value.laidOver (Value.ownPath? path (.record lower)) new)) ∧
    merged.Rooted ∧ Value.merge merged (.record upper) = merged ∧
    Value.merge (.record []) (.record upper) = .record upper ∧
    Value.merge (.record lower) (.record []) = .record lower :=
  ⟨fun _ _ => decides_iff hlower hupper,
    fun _ _ h => Value.getPath?_of_ownPath? (Value.ownPath?_merge hupper h (.record lower)),
    Value.rooted_merge hupper hlower, Value.merge_merge_self hupper (.record lower), Value.nil_merge hupper,
    Value.merge_nil lower⟩

/-- of three names that both layers have, one leads to a record over a record, one to a record over a scalar, and one to
a scalar over a record: below the first, names of both layers are found; below the second, those of the upper one only;
below the third, none -/
theorem layers_decided_under_three_names :
    let both : Units := .ofString "both"
    let opened : Units := .ofString "opened"
    let closed : Units := .ofString "closed"
    let name : Units := .ofString "name"
    let other : Units := .ofString "other"
    let lower : Record :=
      [(both, .record [(name, .bool true)]), (opened, .null), (closed, .record [(name, .bool true)])]
    let upper : Record := [(closed, .bool false), (opened, .record [(other, .null)]), (both, .record [(other, .null)])]
    let merged : Value := Value.merge (.record lower) (.record upper)
    (Value.record lower).Rooted ∧ (Value.record upper).Plain ∧
    (∀ path ∈ [[both, name], [both, other], [opened, name], [opened, other], [closed, name]],
      ∀ name ∈ path, IsFree name) ∧
    Value.getPath? [both, name] merged = some (.bool true) ∧
    Value.getPath? [both, other] merged = some .null ∧
    Value.getPath? [opened, name] merged = none ∧
    Value.getPath? [opened, other] merged = some .null ∧
    Value.getPath? [closed, name] merged = none ∧
    Value.merge merged (.record upper) = merged := by
  intro both opened closed name other lower upper merged
  have hleaf : ∀ b : Bool, (Value.bool b).IsLeaf := fun _ => trivial
  have hnull : Value.null.IsLeaf := trivial
  have hinner : (Value.record [(name, .bool true)]).Rooted :=
    Record.rooted_insert (.leaf (hleaf true)) name Value.plain_nil.rooted
  have hlower : (Value.record lower).Rooted :=
    Record.rooted_insert hinner closed (Record.rooted_insert (.leaf hnull) opened
      (Record.rooted_insert hinner both Value.plain_nil.rooted))
  have hnames : both ≠ parentName ∧ opened ≠ parentName ∧ closed ≠ parentName ∧ other ≠ parentName := by decide +kernel
  obtain ⟨hbothName, hopenedName, hclosedName, hotherName⟩ := hnames
  have hnew : (Value.record [(other, .null)]).Plain := Record.plain_insert hotherName (.leaf hnull) Value.plain_nil
  have hupper : (Value.record upper).Plain :=
    Record.plain_insert hbothName hnew (Record.plain_insert hopenedName hnew
      (Record.plain_insert hclosedName (.leaf (hleaf false)) Value.plain_nil))
  have hfree : ∀ path ∈ [[both, name], [both, other], [opened, name], [opened, other], [closed, name]],
      ∀ name ∈ path, IsFree name := by decide +kernel
  obtain ⟨hlookup, -, -, hagain, -⟩ := layers_decided_path_by_path hlower hupper
  have hboth : Decides lower upper ([both] ++ [name]) (Value.getPath? ([both] ++ [name]) (.record lower)) :=
    .missing rfl rfl rfl rfl rfl
  have hopened : Decides lower upper ([opened] ++ [name]) none := by
    refine .shadowed rfl rfl rfl fun old hold => ?_
    obtain rfl : Value.null = old := Option.some.inj hold
    exact hnull
  have hclosed : Decides lower upper ([closed] ++ [name]) none := .blocked (by simp) rfl (hleaf false)
  exact ⟨hlower, hupper, hfree, (hlookup _ _ (hfree _ (by simp))).1 hboth,
    (hlookup _ _ (hfree _ (by simp))).1 (.present rfl), (hlookup _ _ (hfree _ (by simp))).1 hopened,
    (hlookup _ _ (hfree _ (by simp))).1 (.present rfl), (hlookup _ _ (hfree _ (by simp))).1 hclosed, hagain⟩

/-- a record under the name that shows a parent is read through the merged record, though both layers lack what is read,
and a scalar there is lost, though the upper layer has it; a layer without fields below makes the same difference. A name
that is only inherited in the upper layer is found there, but what the lower layer holds under it stays. -/
theorem parent_shows_through_merge :
    let a : Units := .ofString "a"
    let b : Units := .ofString "b"
    let inherited : Units := .ofString "constructor"
    let lower : Record := [(a, .record [(.ofString "x", .null)])]
    let held : Record := [(inherited, .bool true)]
    let parent : Record := [(parentName, .record [(b, .bool true)])]
    let scalar : Record := [(parentName, .bool true)]
    let merged (lower upper : Record) : Value := Value.merge (.record lower) (.record upper)
    (Decides lower [(a, .record parent)] [a, b] none ∧
      Value.getPath? [a, b] (merged lower [(a, .record parent)]) = some (.bool true)) ∧
    (Decides lower [(a, .record scalar)] [a, parentName] (some (.bool true)) ∧
      Value.getPath? [a, parentName] (merged lower [(a, .record scalar)]) = some .root) ∧
    Value.getPath? [b] (.record parent) = none ∧ Value.getPath? [b] (merged [] parent) = some (.bool true) ∧
    (Decides held [] [inherited] (some (.builtin inherited)) ∧
      Value.getPath? [inherited] (merged held []) = some (.bool true)) := by
  intro a b inherited lower held parent scalar merged
  have hparent : Decides lower [(a, .record parent)] ([a] ++ [b]) (Value.getPath? ([a] ++ [b]) (.record lower)) :=
    .missing rfl rfl rfl rfl rfl
  have hscalar : Decides lower [(a, .record scalar)] [a, parentName]
      (some (Value.laidOver (Value.getPath? [a, parentName] (.record lower)) (.bool true))) := .present rfl
  have hinherited : Decides held [] [inherited] (some (.builtin inherited)) := .present rfl
  exact ⟨⟨hparent, rfl⟩, ⟨hscalar, rfl⟩, rfl, rfl, hinherited, rfl⟩

end SliceParser.Config
