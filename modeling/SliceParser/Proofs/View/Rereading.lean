/-
PARTS READ AGAIN: the two sides of a cut read their own windows into elements. Behind whole elements they read what the
view read there.

- `Rereading`: an alphabet that reads the units of the first elements of a text as these elements again, and the units
  behind them as the others. Units of text do, as no pair is made across a boundary; octets do, as each is an element by
  itself.
- `members_take_extent`, `members_drop_extent`: **a cut behind some elements leaves these on one side and the others on
  the other**, each read from its own window. `elements_take_extent` says it with offsets.
- `extent_lt_iff`: of two beginnings of a text the longer one takes up more units, so that offsets order boundaries as
  counts do.
-/
import SliceParser.Proofs.Unicode.Segment
import SliceParser.Proofs.View.Elements
import SliceParser.View.Text
import SliceParser.View.Bytes

namespace SliceParser

/-- what is read as some elements and then others is read so in parts as well -/
class Rereading (κ : Type) {α : Type} [Alphabet κ α] : Prop where
  segment_parts : ∀ {us : List κ} {es fs : List α}, Alphabet.segment us = es ++ fs →
    Alphabet.segment (es.flatMap (Alphabet.units : α → List κ)) = es ∧
      Alphabet.segment (fs.flatMap (Alphabet.units : α → List κ)) = fs

instance : Rereading UInt16 where
  segment_parts h := segment_of_append h

instance : Rereading UInt8 where
  segment_parts {_ es fs} _ := ⟨List.flatMap_singleton' es, List.flatMap_singleton' fs⟩

/-! ## Extents of beginnings -/

section

variable {κ α : Type} [Alphabet κ α] {es fs gs : List α}

theorem length_units_pos (e : α) : 0 < (Alphabet.units e : List κ).length :=
  List.length_pos_of_ne_nil (Alphabet.units_ne_nil e)

theorem extent_lt_of_prefix (h : es <+: fs) (hlt : es.length < fs.length) :
    extent (Alphabet.units : α → List κ) es < extent (Alphabet.units : α → List κ) fs := by
  obtain ⟨others, rfl⟩ := h
  cases others with
  | nil => simp at hlt
  | cons e others =>
    have hpos : 0 < (Alphabet.units e : List κ).length := length_units_pos e
    rw [extent_append, extent_cons]
    omega

/-- offsets order the beginnings of a text as counts do -/
theorem extent_lt_iff (hes : es <+: gs) (hfs : fs <+: gs) :
    extent (Alphabet.units : α → List κ) es < extent (Alphabet.units : α → List κ) fs ↔ es.length < fs.length := by
  constructor
  · intro hlt
    by_contra hle
    have hpre : fs <+: es := List.prefix_of_prefix_length_le hfs hes (Nat.le_of_not_lt hle)
    have := extent_le_of_prefix (Alphabet.units : α → List κ) hpre
    omega
  · intro hlt
    exact extent_lt_of_prefix (List.prefix_of_prefix_length_le hes hfs hlt.le) hlt

theorem extent_eq_zero_iff : extent (Alphabet.units : α → List κ) es = 0 ↔ es = [] := by
  constructor
  · intro hzero
    cases es with
    | nil => rfl
    | cons e es =>
      have hpos : 0 < (Alphabet.units e : List κ).length := length_units_pos e
      rw [extent_cons] at hzero
      omega
  · rintro rfl
    rfl

end

namespace View

/-! ## Elements with their offsets -/

section

variable {κ α : Type} (units : α → List κ)

theorem length_placed (start : Nat) (es : List α) : (placed units start es).length = es.length := by
  induction es generalizing start with
  | nil => rfl
  | cons e es ih => rw [placed, List.length_cons, ih, List.length_cons]

theorem map_snd_placed (start : Nat) (es : List α) : (placed units start es).map Prod.snd = es := by
  induction es generalizing start with
  | nil => rfl
  | cons e es ih => rw [placed, List.map_cons, ih]

end

variable {V κ α ω : Type} [Position ω] [View V κ ω] [Alphabet κ α]

theorem elements_eq (v : V) : elements v = placed (Alphabet.units : α → List κ) 0 (members v) := rfl

theorem map_snd_elements (v : V) : (elements v).map Prod.snd = (members v : List α) := by
  rw [elements_eq, map_snd_placed]

theorem length_elements (v : V) : (elements v : List (Nat × α)).length = (members v : List α).length :=
  length_placed _ 0 _

theorem mem_members_iff {v : V} {e : α} : e ∈ members v ↔ ∃ n, (n, e) ∈ elements v := by
  rw [← map_snd_elements, List.mem_map]
  simp

theorem length_eq_zero_iff {v : V} : length v = 0 ↔ (members v : List α) = [] := by
  rw [← extent_members v, extent_eq_zero_iff]

/-! ## The sides of a cut behind whole elements -/

variable [Rereading κ] {v : V} {es fs : List α}

theorem members_take_extent (h : members v = es ++ fs) :
    members (take v (extent (Alphabet.units : α → List κ) es)) = es := by
  rw [members, content_take, content_take_extent h]
  exact (Rereading.segment_parts h).1

theorem members_drop_extent (h : members v = es ++ fs) :
    members (drop v (extent (Alphabet.units : α → List κ) es)) = fs := by
  rw [members, content_drop, content_drop_extent h]
  exact (Rereading.segment_parts h).2

theorem elements_take_extent (h : members v = es ++ fs) :
    elements (take v (extent (Alphabet.units : α → List κ) es)) = (elements v).take es.length := by
  have hlength : (placed (Alphabet.units : α → List κ) 0 es).length = es.length := length_placed _ 0 es
  rw [elements_eq, members_take_extent h, elements_eq, h, placed_append, ← hlength, List.take_left]

end View

end SliceParser
