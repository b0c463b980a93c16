/-
LITERALS AND NEEDLES: when a view begins with a literal, and where a needle is found in it.

- `compareUnits_eq_ok`: a view begins with a literal exactly when the units of the literal are a prefix of its own.
- `compareFolded_append_ok`: comparing with case aside goes element by element, and consumes as many units as the
  literal has.
- `prefix_of_firstOccurrence`, `not_prefix_before_firstOccurrence`, `firstOccurrence_eq_none`: what is found is an
  occurrence, there is none in front of it, and nothing is found only where there is none.
- `OccursAt`: a needle lies wholly inside a view. `findSubstring_eq_some_iff`, `findSubstring_eq_none_iff`: **the least
  such place is found, and it is missed only if there is none.**

Whatever is found lies inside the view: `length_le_of_compare`, `length_le_of_compareNoCase`, `findSubstring_le`.
-/
import SliceParser.Proofs.View.Elements

namespace SliceParser

namespace View

variable {V κ α ω : Type} [Position ω] [View V κ ω] [Alphabet κ α] [DecidableEq κ]

/-! ## Literals -/

theorem compareUnits_eq_ok {us ws : List κ} : compareUnits us ws = .ok ↔ ws <+: us := by
  induction ws generalizing us with
  | nil => simp [compareUnits]
  | cons w ws ih =>
    cases us with
    | nil => simp [compareUnits]
    | cons u us =>
      simp only [compareUnits, List.cons_prefix_cons]
      split_ifs with h
      · simp [ih, h]
      · simp [Ne.symm h]

theorem length_le_of_compare {v literal : V} (h : compare v literal = .ok) : length literal ≤ length v := by
  have := (compareUnits_eq_ok.1 h).length_le
  simpa using this

theorem compareFolded_cons_ok {us : List κ} {e : α} {es : List α} :
    compareFolded us (e :: es) = .ok ↔
      (Alphabet.units e : List κ).length ≤ us.length ∧
      Alphabet.fold (us.take (Alphabet.units e : List κ).length) = Alphabet.fold (Alphabet.units e : List κ) ∧
      compareFolded (us.drop (Alphabet.units e : List κ).length) es = .ok := by
  simp only [compareFolded, List.length_take]
  split_ifs with hshort hfold
  · simp only [false_iff, not_and]
    omega
  · have : (Alphabet.units e : List κ).length ≤ us.length := by omega
    simp [this, hfold]
  · simp [hfold]

theorem compareFolded_append_ok {us : List κ} {es fs : List α} :
    compareFolded us (es ++ fs) = .ok ↔
      compareFolded us es = .ok ∧ compareFolded (us.drop (extent (Alphabet.units : α → List κ) es)) fs = .ok := by
  induction es generalizing us with
  | nil => simp [compareFolded]
  | cons e es ih =>
    rw [List.cons_append, compareFolded_cons_ok, compareFolded_cons_ok, ih, List.drop_drop, extent_cons]
    simp only [and_assoc]

theorem extent_le_of_compareFolded {us : List κ} {es : List α} (h : compareFolded us es = .ok) :
    extent (Alphabet.units : α → List κ) es ≤ us.length := by
  induction es generalizing us with
  | nil => exact Nat.zero_le _
  | cons e es ih =>
    obtain ⟨hle, -, hrest⟩ := compareFolded_cons_ok.1 h
    have := ih hrest
    rw [List.length_drop] at this
    rw [extent_cons]
    omega

theorem length_le_of_compareNoCase {v literal : V} (h : compareNoCase v literal = .ok) :
    length literal ≤ length v := by
  have := extent_le_of_compareFolded h
  rwa [← members, extent_members, length_content] at this

/-! ## Needles -/

theorem firstOccurrence_nil (us : List κ) : firstOccurrence [] us = some 0 := by
  cases us <;> rfl

theorem prefix_of_firstOccurrence {needle us : List κ} {n : Nat} (h : firstOccurrence needle us = some n) :
    n ≤ us.length ∧ needle <+: us.drop n := by
  induction us generalizing n with
  | nil =>
    simp only [firstOccurrence] at h
    split_ifs at h with hempty
    obtain rfl := Option.some.inj h
    rw [List.isEmpty_iff.1 hempty]
    exact ⟨Nat.zero_le _, List.nil_prefix⟩
  | cons u us ih =>
    simp only [firstOccurrence] at h
    split_ifs at h with hhere
    · obtain rfl := Option.some.inj h
      exact ⟨Nat.zero_le _, by simpa using hhere⟩
    · obtain ⟨m, hm, rfl⟩ := Option.map_eq_some_iff.1 h
      obtain ⟨hle, hpre⟩ := ih hm
      exact ⟨Nat.succ_le_succ hle, by simpa using hpre⟩

theorem not_prefix_before_firstOccurrence {needle us : List κ} {n j : Nat} (h : firstOccurrence needle us = some n)
    (hj : j < n) : ¬ needle <+: us.drop j := by
  induction us generalizing n j with
  | nil =>
    simp only [firstOccurrence] at h
    split_ifs at h
    obtain rfl := Option.some.inj h
    exact absurd hj (Nat.not_lt_zero j)
  | cons u us ih =>
    simp only [firstOccurrence] at h
    split_ifs at h with hhere
    · obtain rfl := Option.some.inj h
      exact absurd hj (Nat.not_lt_zero j)
    · obtain ⟨m, hm, rfl⟩ := Option.map_eq_some_iff.1 h
      cases j with
      | zero => simpa using hhere
      | succ j => exact ih hm (Nat.lt_of_succ_lt_succ hj)

theorem firstOccurrence_eq_none {needle us : List κ} :
    firstOccurrence needle us = none ↔ ∀ k ≤ us.length, ¬ needle <+: us.drop k := by
  constructor
  · intro h
    induction us with
    | nil =>
      intro k _ hpre
      rw [List.drop_nil, List.prefix_nil] at hpre
      rw [hpre, firstOccurrence_nil] at h
      exact nomatch h
    | cons u us ih =>
      simp only [firstOccurrence] at h
      split_ifs at h with hhere
      intro k hk
      cases k with
      | zero => simpa using hhere
      | succ k => exact ih (Option.map_eq_none_iff.1 h) k (Nat.le_of_succ_le_succ hk)
  · intro h
    by_contra hfound
    obtain ⟨n, hn⟩ := Option.ne_none_iff_exists'.1 hfound
    obtain ⟨hle, hpre⟩ := prefix_of_firstOccurrence hn
    exact h n hle hpre

theorem findSubstring_le {v needle : V} {n : Nat} (h : findSubstring v needle = some n) : n ≤ length v := by
  have := (prefix_of_firstOccurrence h).1
  rwa [length_content] at this

/-- `k` units behind the start of the view the needle begins, and it ends inside the view -/
def OccursAt (v needle : V) (k : Nat) : Prop :=
  k ≤ length v ∧ content needle <+: (content v).drop k

theorem findSubstring_eq_none_iff {v needle : V} : findSubstring v needle = none ↔ ∀ k, ¬ OccursAt v needle k := by
  rw [findSubstring, firstOccurrence_eq_none, length_content]
  constructor
  · intro h k hoccurs
    exact h k hoccurs.1 hoccurs.2
  · intro h k hk hpre
    exact h k ⟨hk, hpre⟩

/-- **The first occurrence is found, and nothing else.** -/
theorem findSubstring_eq_some_iff {v needle : V} {k : Nat} :
    findSubstring v needle = some k ↔ OccursAt v needle k ∧ ∀ j < k, ¬ OccursAt v needle j := by
  constructor
  · intro h
    refine ⟨⟨findSubstring_le h, (prefix_of_firstOccurrence h).2⟩, ?_⟩
    intro j hj hoccurs
    exact not_prefix_before_firstOccurrence h hj hoccurs.2
  · intro ⟨hoccurs, hleast⟩
    cases hfind : findSubstring v needle with
    | none => exact absurd hoccurs (findSubstring_eq_none_iff.1 hfind k)
    | some n =>
      have hn : OccursAt v needle n := ⟨findSubstring_le hfind, (prefix_of_firstOccurrence hfind).2⟩
      -- neither of the two places lies in front of the other
      have hle : k ≤ n := by
        by_contra hlt
        exact hleast n (Nat.lt_of_not_le hlt) hn
      have hge : n ≤ k := by
        by_contra hlt
        exact not_prefix_before_firstOccurrence hfind (Nat.lt_of_not_le hlt) hoccurs.2
      rw [Nat.le_antisymm hle hge]

end View

end SliceParser
