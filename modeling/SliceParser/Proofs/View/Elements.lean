/-
ELEMENTS of a view: what they take up, where runs of them end, and what a cut between two of them leaves.

- `extent`: how many units elements take up. `take_extent`, `drop_extent`: behind so many units end the units of these
  elements, and those of the others begin. `boundaryAfter_eq`, `find?_placed`: the offsets of elements are extents of
  those in front of them.
- `runEnd`: the run before the first element that satisfies a predicate ends behind the longest run of elements that do
  not (`runEnd_eq`); if there is no such element, that is all of the view.
- `sliceIndex_eq`: the offset behind the first elements is the extent of those elements, if there are so many.
- `IsBoundary`: an offset between two elements, or at an edge of the view. Both searches end at one
  (`runEnd_isBoundary`, `sliceIndex_isBoundary`), and none lies outside the view (`IsBoundary.le_length`).
- `elements_take_append_drop`: the elements of the two sides of a cut are those of the view with their offsets, if they
  are those of the view without them.
-/
import SliceParser.View.Basic
import Mathlib.Data.List.TakeWhile
import Mathlib.Tactic

namespace SliceParser

/-! ## Extents -/

/-- how many units elements take up -/
def extent {κ α : Type} (units : α → List κ) (es : List α) : Nat :=
  (es.flatMap units).length

section

variable {κ α : Type} (units : α → List κ)

@[simp] theorem extent_nil : extent units [] = 0 := rfl

@[simp] theorem extent_cons (e : α) (es : List α) : extent units (e :: es) = (units e).length + extent units es := by
  simp [extent]

@[simp] theorem extent_append (es fs : List α) : extent units (es ++ fs) = extent units es + extent units fs := by
  simp [extent]

theorem take_extent (es fs : List α) : ((es ++ fs).flatMap units).take (extent units es) = es.flatMap units := by
  rw [List.flatMap_append, extent, List.take_left]

theorem drop_extent (es fs : List α) : ((es ++ fs).flatMap units).drop (extent units es) = fs.flatMap units := by
  rw [List.flatMap_append, extent, List.drop_left]

theorem extent_le_of_prefix {es fs : List α} (h : es <+: fs) : extent units es ≤ extent units fs := by
  obtain ⟨gs, rfl⟩ := h
  rw [extent_append]
  exact Nat.le_add_right _ _

theorem extent_eq_length {es : List α} (h : ∀ e ∈ es, (units e).length = 1) : extent units es = es.length := by
  induction es with
  | nil => rfl
  | cons e es ih =>
    rw [extent_cons, h e List.mem_cons_self, ih fun f hf => h f (List.mem_cons_of_mem _ hf), List.length_cons,
      Nat.add_comm]

theorem boundaryAfter_eq (es : List α) (count : Nat) :
    boundaryAfter units es count = if count ≤ es.length then some (extent units (es.take count)) else none := by
  induction es generalizing count with
  | nil => cases count <;> simp [boundaryAfter]
  | cons e es ih =>
    cases count with
    | zero => simp [boundaryAfter]
    | succ count =>
      simp only [boundaryAfter, ih, List.length_cons, Nat.add_le_add_iff_right, List.take_succ_cons, extent_cons]
      split_ifs <;> rfl

end

namespace View

section

variable {κ α : Type} (units : α → List κ)

theorem find?_placed (p : α → Bool) (start : Nat) (es : List α) :
    ((placed units start es).find? fun (_, e) => p e).map (·.1) =
      if es.any p then some (start + extent units (es.takeWhile fun e => !p e)) else none := by
  induction es generalizing start with
  | nil => rfl
  | cons e es ih =>
    by_cases he : p e = true
    · simp [placed, he]
    · have he : p e = false := by simpa using he
      simp only [placed, List.find?_cons, he, ih, List.any_cons, Bool.false_or, List.takeWhile_cons, Bool.not_false,
        if_true, extent_cons, Nat.add_assoc]

theorem placed_append (start : Nat) (es fs : List α) :
    placed units start (es ++ fs) = placed units start es ++ placed units (start + extent units es) fs := by
  induction es generalizing start with
  | nil => rfl
  | cons e es ih =>
    rw [List.cons_append, placed, placed, ih, List.cons_append, extent_cons, Nat.add_assoc]

theorem placed_add (start k : Nat) (es : List α) :
    placed units (start + k) es = (placed units start es).map (Prod.map (· + k) id) := by
  induction es generalizing start with
  | nil => rfl
  | cons e es ih =>
    rw [placed, placed, List.map_cons, Nat.add_right_comm, ih]
    rfl

end

variable {V κ α ω : Type} [Position ω] [View V κ ω] [Alphabet κ α]

theorem flatMap_units_members (v : V) : (members v).flatMap (Alphabet.units : α → List κ) = content v :=
  Alphabet.flatMap_units_segment (content v)

theorem extent_members (v : V) : extent (Alphabet.units : α → List κ) (members v) = length v := by
  rw [extent, flatMap_units_members, length_content]

/-- the units of the first elements of a view stand in front of those of the others -/
theorem content_take_extent {v : V} {es fs : List α} (h : members v = es ++ fs) :
    (content v).take (extent (Alphabet.units : α → List κ) es) = es.flatMap Alphabet.units := by
  rw [← flatMap_units_members, h, take_extent]

theorem content_drop_extent {v : V} {es fs : List α} (h : members v = es ++ fs) :
    (content v).drop (extent (Alphabet.units : α → List κ) es) = fs.flatMap Alphabet.units := by
  rw [← flatMap_units_members, h, drop_extent]

/-! ## Boundaries -/

/-- an offset behind some of the first elements of a view -/
def IsBoundary (v : V) (k : Nat) : Prop :=
  ∃ es, es <+: members v ∧ k = extent (Alphabet.units : α → List κ) es

theorem IsBoundary.le_length {v : V} {k : Nat} (h : IsBoundary v k) : k ≤ length v := by
  obtain ⟨es, hpre, rfl⟩ := h
  rw [← extent_members v]
  exact extent_le_of_prefix _ hpre

theorem position_eq (v : V) (p : α → Bool) :
    position v p = if (members v).any p then
      some (extent (Alphabet.units : α → List κ) ((members v).takeWhile fun e => !p e)) else none := by
  rw [position, elements, find?_placed, Nat.zero_add]
  rfl

/-- where the run before the first element that satisfies `p` ends -/
def runEnd (v : V) (p : α → Bool) : Nat :=
  (position v p).getD (length v)

theorem runEnd_eq (v : V) (p : α → Bool) :
    runEnd v p = extent (Alphabet.units : α → List κ) ((members v).takeWhile fun e => !p e) := by
  rw [runEnd, position_eq]
  split_ifs with h
  · rfl
  · have hall : (members v).takeWhile (fun e => !p e) = members v := by
      rw [List.takeWhile_eq_self_iff]
      intro e he
      simpa using fun hp => h (List.any_eq_true.2 ⟨e, he, hp⟩)
    rw [hall, extent_members]
    rfl

theorem runEnd_isBoundary (v : V) (p : α → Bool) : IsBoundary v (runEnd v p) :=
  ⟨_, List.takeWhile_prefix _, runEnd_eq v p⟩

theorem sliceIndex_eq (v : V) (count : Nat) :
    sliceIndex v count = if count ≤ (members v).length then
      some (extent (Alphabet.units : α → List κ) ((members v).take count)) else none := by
  rw [sliceIndex, Alphabet.boundary_eq, boundaryAfter_eq]
  rfl

theorem sliceIndex_isBoundary {v : V} {count offset : Nat} (h : sliceIndex v count = some offset) :
    IsBoundary v offset := by
  rw [sliceIndex_eq] at h
  split_ifs at h
  exact ⟨_, List.take_prefix _ _, (Option.some.inj h).symm⟩

/-! ## The two sides of a cut -/

theorem elements_take_append_drop {v : V} {k : Nat} (hk : k ≤ length v)
    (h : (members (take v k) ++ members (drop v k) : List α) = members v) :
    elements (take v k) ++ (elements (drop v k)).map (Prod.map (· + k) id) = elements v := by
  have hextent : extent (Alphabet.units : α → List κ) (members (take v k)) = k := by
    rw [extent_members, length_take, Nat.min_eq_left hk]
  calc elements (take v k) ++ (elements (drop v k)).map (Prod.map (· + k) id)
      = elements (take v k) ++ placed (Alphabet.units : α → List κ) (0 + k) (members (drop v k)) := by
        rw [placed_add]
        rfl
    _ = placed (Alphabet.units : α → List κ) 0 (members (take v k) ++ members (drop v k)) := by
        rw [placed_append, hextent]
        rfl
    _ = elements v := by
        rw [h]
        rfl

end View

end SliceParser
