/-
SEGMENTING a text that is cut in two: when the elements of the parts are the elements of the whole.

- `Units.Torn`: the cut runs between a high surrogate and a low one, which are one element of the whole.
- `segment_append_iff`: **a cut is harmless exactly when it tears no pair.**
- `segment_of_append`: a cut between two elements of the whole is harmless.
- `surrogates_of_mem_segment`: every pair of a text is a high surrogate and a low one.
-/
import SliceParser.Unicode.Utf16

namespace SliceParser

theorem not_low_of_high {u : UInt16} (h : isHighSurrogate u = true) : isLowSurrogate u = false := by
  simp only [isHighSurrogate, Bool.and_eq_true, decide_eq_true_eq] at h
  have hlow : ¬ 0xDC00 ≤ u := by
    intro hge
    exact absurd (UInt16.le_trans hge h.2) (by decide)
  rw [isLowSurrogate, decide_eq_false hlow, Bool.false_and]

/-! ## Edges of a text -/

namespace Units

/-- the last unit is a high surrogate, which pairs with a low one that follows it -/
def endsHigh (us : Units) : Bool := us.getLast?.any isHighSurrogate

/-- the first unit is a low surrogate, which pairs with a high one in front of it -/
def beginsLow (us : Units) : Bool := us.head?.any isLowSurrogate

/-- between the two texts a pair is torn apart -/
def Torn (us ws : Units) : Prop := endsHigh us = true ∧ beginsLow ws = true

theorem endsHigh_append {us ws : Units} (h : ws ≠ []) : endsHigh (us ++ ws) = endsHigh ws := by
  rw [endsHigh, endsHigh, List.getLast?_append, List.getLast?_eq_some_getLast h, Option.some_or]

theorem endsHigh_cons (u : UInt16) {us : Units} (h : us ≠ []) : endsHigh (u :: us) = endsHigh us := by
  rw [← List.singleton_append, endsHigh_append h]

@[simp] theorem beginsLow_cons (u : UInt16) (us : Units) : beginsLow (u :: us) = isLowSurrogate u := rfl

theorem beginsLow_mono {us ws : Units} (hne : us ≠ []) (h : us <+: ws) : beginsLow ws = beginsLow us := by
  obtain ⟨tail, rfl⟩ := h
  obtain ⟨u, hu⟩ := Option.isSome_iff_exists.1 (List.isSome_head?.2 hne)
  rw [beginsLow, beginsLow, List.head?_append, hu, Option.some_or]

theorem not_torn_mono {us ws ws' : Units} (h : ¬ Torn us ws) (hpre : ws' <+: ws) : ¬ Torn us ws' := by
  rintro ⟨hhigh, hlow⟩
  cases ws' with
  | nil => exact absurd hlow (by decide)
  | cons w ws' =>
    rw [← beginsLow_mono (by simp) hpre] at hlow
    exact h ⟨hhigh, hlow⟩

theorem not_torn_nil (ws : Units) : ¬ Torn [] ws := by
  rintro ⟨hhigh, -⟩
  exact absurd hhigh (by decide)

end Units

open SliceParser.Units

/-! ## Cuts -/

theorem segment_unit {u : UInt16} {us : Units} (h : ¬ Torn [u] us) : segment (u :: us) = .unit u :: segment us := by
  cases us with
  | nil => rfl
  | cons w ws =>
    rw [segment, if_neg]
    intro hpair
    rw [Bool.and_eq_true] at hpair
    exact h hpair

theorem segment_pair {high low : UInt16} (hhigh : isHighSurrogate high = true) (hlow : isLowSurrogate low = true)
    (us : Units) : segment (high :: low :: us) = .pair high low :: segment us := by
  rw [segment, if_pos]
  rw [hhigh, hlow, Bool.and_self]

/-- the first element of a text is a pair, or a unit that makes no pair with what follows -/
theorem segment_eq_cons {us : Units} {e : Element} {es : List Element} (h : segment us = e :: es) :
    (∃ u ws, e = .unit u ∧ us = u :: ws ∧ ¬ Torn [u] ws ∧ segment ws = es) ∨
    (∃ high low ws, e = .pair high low ∧ us = high :: low :: ws ∧ isHighSurrogate high = true ∧
      isLowSurrogate low = true ∧ segment ws = es) := by
  cases us with
  | nil => exact absurd h (by simp [segment])
  | cons u ws =>
    by_cases htorn : Torn [u] ws
    · obtain ⟨hhigh, hlow⟩ := htorn
      have hhigh : isHighSurrogate u = true := hhigh
      cases ws with
      | nil => exact absurd hlow (by decide)
      | cons w ws =>
        rw [beginsLow_cons] at hlow
        rw [segment_pair hhigh hlow] at h
        obtain ⟨rfl, rfl⟩ := List.cons.inj h
        exact Or.inr ⟨u, w, ws, rfl, rfl, hhigh, hlow, rfl⟩
    · rw [segment_unit htorn] at h
      obtain ⟨rfl, rfl⟩ := List.cons.inj h
      exact Or.inl ⟨u, ws, rfl, rfl, htorn, rfl⟩

theorem segment_append {us ws : Units} (h : ¬ Torn us ws) : segment (us ++ ws) = segment us ++ segment ws := by
  fun_induction segment us with
  | case1 => rfl
  | case2 u => exact segment_unit h
  | case3 u w rest hpair ih =>
    have hrest : ¬ Torn rest ws := by
      rintro ⟨hhigh, hlow⟩
      cases rest with
      | nil => exact absurd hhigh (by decide)
      | cons x xs =>
        refine h ⟨?_, hlow⟩
        rwa [endsHigh_cons u (by simp), endsHigh_cons w (by simp)]
    rw [List.cons_append, List.cons_append, segment, if_pos hpair, ih hrest, List.cons_append]
  | case4 u w rest hno ih =>
    have hrest : ¬ Torn (w :: rest) ws := by
      rintro ⟨hhigh, hlow⟩
      refine h ⟨?_, hlow⟩
      rwa [endsHigh_cons u (by simp)]
    rw [List.cons_append, List.cons_append, segment, if_neg hno, ← List.cons_append, ih hrest, List.cons_append]

/-- **A cut is harmless exactly when it tears no pair.** A torn pair is one element of the whole, and of the parts
it is two. -/
theorem segment_append_iff {us ws : Units} : segment (us ++ ws) = segment us ++ segment ws ↔ ¬ Torn us ws := by
  constructor
  · rintro heq ⟨hhigh, hlow⟩
    obtain ⟨front, high, rfl⟩ : ∃ front high, us = front ++ [high] := by
      rcases List.eq_nil_or_concat us with rfl | ⟨front, high, rfl⟩
      · exact absurd hhigh (by decide)
      · exact ⟨front, high, List.concat_eq_append⟩
    rw [endsHigh_append (by simp)] at hhigh
    have hhigh : isHighSurrogate high = true := hhigh
    cases ws with
    | nil => exact absurd hlow (by decide)
    | cons low back =>
      -- in front of the high surrogate a cut is harmless, whatever stands behind it
      have hcut : ∀ tail, segment (front ++ high :: tail) = segment front ++ segment (high :: tail) := by
        intro tail
        apply segment_append
        rintro ⟨-, hbegins⟩
        rw [beginsLow_cons, not_low_of_high hhigh] at hbegins
        exact absurd hbegins (by decide)
      rw [List.append_assoc, List.singleton_append, hcut, hcut, List.append_assoc, List.append_cancel_left_eq,
        segment_pair hhigh hlow] at heq
      exact absurd (List.head_eq_of_cons_eq heq) (by simp)
  · exact segment_append

/-- the units of the first elements of a text are read as these elements again, and so are those of the others -/
theorem segment_of_append {us : Units} {es fs : List Element} (h : segment us = es ++ fs) :
    segment (es.flatMap Element.units) = es ∧ segment (fs.flatMap Element.units) = fs := by
  induction es generalizing us with
  | nil =>
    have h : segment us = fs := h
    rw [← h, flatMap_units_segment]
    exact ⟨rfl, rfl⟩
  | cons e es ih =>
    rw [List.flatMap_cons]
    rcases segment_eq_cons h with ⟨u, ws, rfl, rfl, hwhole, htail⟩ | ⟨high, low, ws, rfl, rfl, hhigh, hlow, htail⟩
    · have htail : segment ws = es ++ fs := htail
      obtain ⟨hfront, hback⟩ := ih htail
      have hpre : es.flatMap Element.units <+: ws := by
        rw [← flatMap_units_segment ws, htail, List.flatMap_append]
        exact List.prefix_append _ _
      have hcons : segment (u :: es.flatMap Element.units) = .unit u :: es := by
        rw [segment_unit (not_torn_mono hwhole hpre), hfront]
      exact ⟨hcons, hback⟩
    · obtain ⟨hfront, hback⟩ := ih htail
      have hcons : segment (high :: low :: es.flatMap Element.units) = .pair high low :: es := by
        rw [segment_pair hhigh hlow, hfront]
      exact ⟨hcons, hback⟩

/-- every pair of a text is a high surrogate and a low one -/
theorem surrogates_of_mem_segment {us : Units} {high low : UInt16} (h : .pair high low ∈ segment us) :
    isHighSurrogate high = true ∧ isLowSurrogate low = true := by
  obtain ⟨front, back, hsplit⟩ := List.append_of_mem h
  rcases segment_eq_cons (segment_of_append hsplit).2 with
    ⟨u, ws, hunit, -⟩ | ⟨high', low', ws, hpair, -, hhigh, hlow, -⟩
  · exact nomatch hunit
  · obtain ⟨rfl, rfl⟩ := Element.pair.inj hpair
    exact ⟨hhigh, hlow⟩

end SliceParser
