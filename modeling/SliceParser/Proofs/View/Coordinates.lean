/-
OFFSETS AND COUNTS, two measures of one sequence of elements.

- `place_of_getElem?`: the element with a number begins at the extent of those in front of it.
- `walk`: the way to the offset for a count that passes the elements one by one. `sliceIndex_eq_walk`: **every view
  gives the offset that the walk comes to**, also one that need not walk.
- `position_eq_bind`: where a predicate first holds is the offset for the number of that element.
- `Text.PairAt`: a high surrogate and a low one stand at an offset, both inside the window. `length_units_eq`: **an
  element of a text is as wide as that says**, whatever stands around the window.
- `Text.stridesFrom`: the elements as a reader finds them that goes along the source with this stride. `stridesFrom_eq`:
  **they are the elements of the window.**
- `offsets_are_coordinates`: all of it, for texts and octets.
-/
import SliceParser.Proofs.View.Rereading

namespace SliceParser

theorem extent_eq_sum {κ α : Type} (units : α → List κ) (es : List α) :
    extent units es = (es.map fun e => (units e).length).sum := by
  rw [extent, List.length_flatMap]

namespace View

/-! ## Elements by number -/

theorem getElem?_placed {κ α : Type} (units : α → List κ) (start : Nat) (es : List α) (count : Nat) :
    (placed units start es)[count]? = es[count]?.map fun e => (start + extent units (es.take count), e) := by
  induction es generalizing start count with
  | nil => rfl
  | cons e es ih =>
    cases count with
    | zero => simp [placed]
    | succ count => simp [placed, ih, Nat.add_assoc]

variable {V κ α ω : Type} [Position ω] [View V κ ω] [Alphabet κ α]

theorem getElem?_elements (v : V) (count : Nat) :
    (elements v)[count]? = (members v)[count]?.map fun e =>
      (extent (Alphabet.units : α → List κ) ((members v).take count), e) := by
  rw [elements_eq, getElem?_placed]
  simp only [Nat.zero_add]

/-- the element with a number begins at the extent of those in front of it -/
theorem place_of_getElem? {v : V} {count offset : Nat} {e : α} (h : (elements v)[count]? = some (offset, e)) :
    (members v)[count]? = some e ∧ offset = extent (Alphabet.units : α → List κ) ((members v).take count) := by
  rw [getElem?_elements, Option.map_eq_some_iff] at h
  obtain ⟨e', he', hplace⟩ := h
  obtain ⟨rfl, rfl⟩ := Prod.mk.inj hplace
  exact ⟨he', rfl⟩

theorem sliceIndex_of_getElem? {v : V} {count offset : Nat} {e : α} (h : (elements v)[count]? = some (offset, e)) :
    sliceIndex v count = some offset := by
  obtain ⟨he, rfl⟩ := place_of_getElem? h
  obtain ⟨hlt, -⟩ := List.getElem?_eq_some_iff.1 he
  rw [sliceIndex_eq, if_pos hlt.le]

theorem sliceIndex_length (v : V) : sliceIndex v (elements v).length = some (length v) := by
  rw [length_elements, sliceIndex_eq, if_pos le_rfl, List.take_length, extent_members]

theorem sliceIndex_beyond {v : V} {count : Nat} (h : (elements v).length < count) : sliceIndex v count = none := by
  rw [length_elements] at h
  rw [sliceIndex_eq, if_neg (Nat.not_le.2 h)]

/-- a greater count has a greater offset -/
theorem sliceIndex_lt {v : V} {count count' offset offset' : Nat} (h : count < count')
    (hoffset : sliceIndex v count = some offset) (hoffset' : sliceIndex v count' = some offset') :
    offset < offset' := by
  rw [sliceIndex_eq] at hoffset hoffset'
  split_ifs at hoffset hoffset' with hle hle'
  rw [← Option.some.inj hoffset, ← Option.some.inj hoffset',
    extent_lt_iff (List.take_prefix _ _) (List.take_prefix _ _), List.length_take_of_le hle,
    List.length_take_of_le hle']
  exact h

/-! ## Walks -/

/-- passes elements with their offsets until `count` are seen, and says where that is; behind the last one, `stop` -/
def walk (stop count : Nat) : (seen : Nat) → List (Nat × α) → Option Nat
  | seen, [] => if seen = count then some stop else none
  | seen, (offset, _) :: rest => if seen = count then some offset else walk stop count (seen + 1) rest

theorem walk_eq (stop : Nat) {count seen : Nat} (h : seen ≤ count) (places : List (Nat × α)) :
    walk stop count seen places =
      if count - seen = places.length then some stop else places[count - seen]?.map Prod.fst := by
  induction places generalizing seen with
  | nil =>
    have hiff : seen = count ↔ count - seen = 0 := by omega
    simp [walk, hiff]
  | cons place places ih =>
    rw [walk]
    by_cases hseen : seen = count
    · simp [hseen]
    · obtain ⟨left, hleft⟩ : ∃ left, count - seen = left + 1 := ⟨count - seen - 1, by omega⟩
      have hnext : count - (seen + 1) = left := by omega
      rw [if_neg hseen, ih (by omega), hnext, hleft]
      simp

/-- **Every view gives the offset that a walk comes to.** -/
theorem sliceIndex_eq_walk (v : V) (count : Nat) : sliceIndex v count = walk (length v) count 0 (elements v) := by
  rw [walk_eq (length v) (Nat.zero_le count), Nat.sub_zero]
  rcases Nat.lt_trichotomy count (elements v).length with hlt | rfl | hgt
  · obtain ⟨⟨offset, e⟩, hplace⟩ : ∃ place, (elements v)[count]? = some place :=
      ⟨_, List.getElem?_eq_getElem hlt⟩
    rw [if_neg hlt.ne, hplace, sliceIndex_of_getElem? hplace]
    rfl
  · rw [if_pos rfl, sliceIndex_length]
  · rw [if_neg hgt.ne', List.getElem?_eq_none hgt.le, sliceIndex_beyond hgt]
    rfl

/-- where a predicate first holds is the offset for the number of that element -/
theorem position_eq_bind (v : V) (p : α → Bool) :
    position v p = ((elements v).findIdx? fun place => p place.2).bind (sliceIndex v) := by
  have hfind : (elements v).findIdx? (fun place => p place.2) = (members v).findIdx? p := by
    rw [← map_snd_elements, List.findIdx?_map]
    rfl
  rw [hfind, position_eq, ← List.findIdx?_isSome]
  cases hindex : (members v).findIdx? p with
  | none => rfl
  | some count =>
    obtain ⟨hlt, hfirst⟩ := List.findIdx?_eq_some_iff_findIdx_eq.1 hindex
    have hrun : ((members v).takeWhile fun e => !p e) = (members v).take count := by
      rw [List.takeWhile_eq_take_findIdx_not]
      simp only [Bool.not_not, hfirst]
    rw [Option.isSome_some, if_pos rfl, Option.bind_some, sliceIndex_eq, if_pos hlt.le, hrun]

/-- offsets and counts as two measures of one sequence of elements -/
structure Coordinates (v : V) : Prop where
  content_eq : (elements v).flatMap (fun place => Alphabet.units place.2) = content v
  offset_eq : ∀ count offset e, (elements v)[count]? = some (offset, e) →
    offset = (((elements v).take count).map fun place => (Alphabet.units place.2 : List κ).length).sum
  increasing : (elements v).Pairwise fun place later => place.1 < later.1
  sliceIndex_element : ∀ count offset e, (elements v)[count]? = some (offset, e) → sliceIndex v count = some offset
  sliceIndex_end : sliceIndex v (elements v).length = some (length v)
  sliceIndex_beyond : ∀ count, (elements v).length < count → sliceIndex v count = none
  sliceIndex_lt : ∀ count count' offset offset', count < count' → sliceIndex v count = some offset →
    sliceIndex v count' = some offset' → offset < offset'
  sliceIndex_walk : ∀ count, sliceIndex v count = walk (length v) count 0 (elements v)
  /-- a count that is given as a number has the same offset -/
  sliceIndexOf_eq : ∀ count : Nat, sliceIndexOf v (.ofNat count) = (sliceIndex v count).map Number.ofNat
  position_eq : ∀ p : α → Bool, position v p = ((elements v).findIdx? fun place => p place.2).bind (sliceIndex v)

theorem coordinates (v : V) : Coordinates v where
  content_eq := by
    rw [← flatMap_units_members, ← map_snd_elements, List.flatMap_map]
  offset_eq count offset e h := by
    rw [(place_of_getElem? h).2, extent_eq_sum, ← map_snd_elements, ← List.map_take, List.map_map]
    rfl
  increasing := by
    rw [List.pairwise_iff_getElem]
    intro count count' hcount hcount' hlt
    exact sliceIndex_lt hlt (sliceIndex_of_getElem? (List.getElem?_eq_getElem hcount))
      (sliceIndex_of_getElem? (List.getElem?_eq_getElem hcount'))
  sliceIndex_element _ _ _ := sliceIndex_of_getElem?
  sliceIndex_end := sliceIndex_length v
  sliceIndex_beyond _ := sliceIndex_beyond
  sliceIndex_lt _ _ _ _ := sliceIndex_lt
  sliceIndex_walk := sliceIndex_eq_walk v
  sliceIndexOf_eq := Alphabet.boundaryOf_ofNat (content v)
  position_eq := position_eq_bind v

end View

/-! ## Pairs in a window -/

namespace Text

/-- a high surrogate and a low one stand at an offset of the window, both inside it -/
def PairAt (v : Text) (offset : Nat) : Prop :=
  v.start + offset + 1 < v.stop ∧ v.base[v.start + offset]?.any isHighSurrogate = true ∧
    v.base[v.start + offset + 1]?.any isLowSurrogate = true

instance (v : Text) (offset : Nat) : Decidable (v.PairAt offset) :=
  inferInstanceAs (Decidable (_ ∧ _ ∧ _))

theorem getElem?_content (v : Text) {i : Nat} (h : i < View.length v) :
    (View.content v)[i]? = v.base[v.start + i]? := by
  change ((v.base.drop v.start).take (View.length v))[i]? = _
  rw [List.getElem?_take_of_lt h, List.getElem?_drop]

theorem take_base (v : Text) {offset n : Nat} (h : offset + n ≤ View.length v) :
    (v.base.drop (v.start + offset)).take n = ((View.content v).drop offset).take n := by
  change _ = (((v.base.drop v.start).take (View.length v)).drop offset).take n
  rw [List.drop_take, List.drop_drop, List.take_take, Nat.min_eq_left (by omega)]

/-- a pair stands at an offset when the unit there makes one with what follows it in the window -/
theorem pairAt_iff {v : Text} {offset : Nat} {u : UInt16} {us : Units} (h : (View.content v).drop offset = u :: us) :
    v.PairAt offset ↔ Units.Torn [u] us := by
  have hunit : (View.content v)[offset]? = some u := by
    rw [← List.head?_drop, h, List.head?_cons]
  have hnext : (View.content v)[offset + 1]? = us.head? := by
    rw [← List.head?_drop, ← List.drop_drop, h, List.drop_one, List.tail_cons]
  have hlength : View.length v = v.stop - v.start := rfl
  have hlt : offset < View.length v := by
    obtain ⟨hlt, -⟩ := List.getElem?_eq_some_iff.1 hunit
    rwa [View.length_content] at hlt
  rw [getElem?_content v hlt] at hunit
  by_cases hinside : offset + 1 < View.length v
  · rw [getElem?_content v hinside] at hnext
    have hstop : v.start + offset + 1 < v.stop := by omega
    rw [PairAt, hunit, Nat.add_assoc, hnext]
    exact and_iff_right hstop
  · -- the unit is the last of the window, whatever follows it in the source
    have hstop : ¬ v.start + offset + 1 < v.stop := by omega
    have hlast : us.head? = none := by
      rw [← hnext, List.getElem?_eq_none]
      rw [View.length_content]
      omega
    simp [PairAt, Units.Torn, Units.beginsLow, hstop, hlast]

/-- **An element of a text is two units wide exactly when a pair stands there**, inside the window. -/
theorem length_units_eq {v : Text} {front back : List Element} {e : Element}
    (h : View.members v = front ++ e :: back) :
    e.units.length = if v.PairAt (extent Element.units front) then 2 else 1 := by
  -- behind the elements in front, the window is read as this one and those behind it
  have hread : segment ((View.content v).drop (extent Element.units front)) = e :: back := by
    have hdrop := View.members_drop_extent h
    rwa [View.members, View.content_drop] at hdrop
  rcases segment_eq_cons hread with ⟨u, us, rfl, hcontent, hwhole, -⟩ | ⟨high, low, us, rfl, hcontent, hhigh, hlow, -⟩
  · rw [if_neg (mt (pairAt_iff hcontent).1 hwhole)]
    rfl
  · rw [if_pos ((pairAt_iff hcontent).2 ⟨hhigh, hlow⟩)]
    rfl

theorem length_units_of_mem {v : Text} {offset : Nat} {e : Element} (h : (offset, e) ∈ View.elements v) :
    e.units.length = if v.PairAt offset then 2 else 1 := by
  obtain ⟨count, hcount⟩ := List.getElem?_of_mem h
  obtain ⟨he, rfl⟩ := View.place_of_getElem? hcount
  obtain ⟨hlt, helement⟩ := List.getElem?_eq_some_iff.1 he
  apply length_units_eq
  rw [← helement, ← List.drop_eq_getElem_cons hlt, List.take_append_drop]

/-- elements with their offsets, from one offset on, as a reader finds them that goes along the source: two units where
a pair stands, and one elsewhere -/
def stridesFrom (v : Text) (offset : Nat) : List (Nat × Units) :=
  if offset < View.length v then
    let width := if v.PairAt offset then 2 else 1
    (offset, (v.base.drop (v.start + offset)).take width) :: v.stridesFrom (offset + width)
  else []
termination_by View.length v - offset
decreasing_by split_ifs <;> omega

theorem stridesFrom_extent {v : Text} {front es : List Element} (h : View.members v = front ++ es) :
    v.stridesFrom (extent Element.units front) =
      (View.placed Element.units (extent Element.units front) es).map (Prod.map id Element.units) := by
  induction es generalizing front with
  | nil =>
    have hend : ¬ extent Element.units front < View.length v := by
      rw [← View.extent_members v, h, List.append_nil]
      exact Nat.lt_irrefl _
    rw [stridesFrom, if_neg hend]
    rfl
  | cons e es ih =>
    have hwidth := length_units_eq h
    have hnext : View.members v = (front ++ [e]) ++ es := by rw [h, List.append_assoc, List.singleton_append]
    have hcontent : (View.content v).drop (extent Element.units front) = e.units ++ es.flatMap Element.units :=
      View.content_drop_extent h
    have hlength := congrArg List.length hcontent
    rw [List.length_drop, View.length_content, List.length_append] at hlength
    have hpos : 0 < e.units.length := List.length_pos_of_ne_nil e.units_ne_nil
    have hspelled : (v.base.drop (v.start + extent Element.units front)).take e.units.length = e.units := by
      rw [take_base v (by omega), hcontent, List.take_left]
    have hbehind := ih hnext
    rw [extent_append, extent_cons, extent_nil, Nat.add_zero] at hbehind
    rw [stridesFrom, if_pos (by omega), ← hwidth]
    simp only [hspelled, hbehind]
    rfl

/-- **The elements of a window are what a reader finds that goes along the source.** -/
theorem stridesFrom_eq (v : Text) : v.stridesFrom 0 = (View.elements v).map (Prod.map id Element.units) :=
  stridesFrom_extent (List.nil_append (View.members v)).symm

end Text

/-! ## Texts and octets -/

/-- **Offsets are coordinates** of the elements of every text and of all octets. An element of a text is two units wide
exactly when a high surrogate and a low one stand there, both inside the window, and with this stride a reader that goes
along the source finds the elements. -/
theorem offsets_are_coordinates :
    (∀ v : Text, View.Coordinates v ∧
      (∀ offset e, (offset, e) ∈ View.elements v → e.units.length = if v.PairAt offset then 2 else 1) ∧
      (View.elements v).map (Prod.map id Element.units) = v.stridesFrom 0) ∧
    ∀ v : Bytes, View.Coordinates v :=
  ⟨fun v => ⟨View.coordinates v, fun _ _ => Text.length_units_of_mem, v.stridesFrom_eq.symm⟩, View.coordinates⟩

/-- a window that begins behind a high surrogate and ends in front of a low one, with a pair and a letter inside -/
theorem offsets_are_coordinates_between_halves :
    let v : Text := ⟨⟨[0xD83D, 0xDE00, 0xD83D, 0xDE00, 0x61, 0xD83D, 0xDE00], 1, 6, by decide, by decide⟩⟩
    View.elements v =
      [(0, .unit 0xDE00), (1, .pair 0xD83D 0xDE00), (3, .unit 0x61), (4, .unit 0xD83D)] ∧
    v.PairAt 1 ∧ ¬ v.PairAt 4 ∧
    (Element.pair 0xD83D 0xDE00).units.length = 2 ∧ (Element.unit 0xD83D).units.length = 1 ∧
    View.sliceIndex v 2 = some 3 ∧ View.sliceIndex v 4 = some 5 ∧ View.sliceIndex v 5 = none := by
  intro v
  have helements : View.elements v =
      [(0, .unit 0xDE00), (1, .pair 0xD83D 0xDE00), (3, .unit 0x61), (4, .unit 0xD83D)] := by decide
  have hpair : v.PairAt 1 := by decide
  have hhalf : ¬ v.PairAt 4 := by decide
  obtain ⟨hcoordinates, hwidth, -⟩ := offsets_are_coordinates.1 v
  refine ⟨helements, hpair, hhalf, ?_, ?_, ?_, ?_, ?_⟩
  · rw [hwidth 1 _ (by simp [helements]), if_pos hpair]
  · rw [hwidth 4 _ (by simp [helements]), if_neg hhalf]
  · exact hcoordinates.sliceIndex_element 2 3 (.unit 0x61) (by simp [helements])
  · exact hcoordinates.sliceIndex_end
  · exact hcoordinates.sliceIndex_beyond 5 (by simp [helements])

end SliceParser
