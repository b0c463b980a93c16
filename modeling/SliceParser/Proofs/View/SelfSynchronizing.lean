/-
SELF-SYNCHRONIZING WORDS: elements that are written one behind the other, and can be told apart again from any unit on.

- `SelfSynchronizing`: every word begins with a leading unit and has no other, and no word is the beginning of another.
- `prefix_flatMap_iff`: **a text begins with the words of some elements exactly when its elements begin with them.**
- `firstOccurrence_flatMap`: **searching words is searching elements**: what is found among the units lies in front of
  the element that is found, since nothing that begins with a leading unit is found inside a word.
-/
import SliceParser.Proofs.View.Search

namespace SliceParser

/-- the words of the elements in `p` can be told apart, as each begins with the one leading unit it has -/
structure SelfSynchronizing {κ α : Type} (word : α → List κ) (leads : κ → Bool) (p : α → Prop) : Prop where
  begins : ∀ e, p e → ∃ u us, word e = u :: us ∧ leads u = true ∧ ∀ w ∈ us, leads w = false
  eq_of_prefix : ∀ e f, p e → p f → word e <+: word f → e = f

namespace SelfSynchronizing

variable {κ α : Type} {word : α → List κ} {leads : κ → Bool} {p : α → Prop}

theorem word_ne_nil (h : SelfSynchronizing word leads p) {e : α} (he : p e) : word e ≠ [] := by
  obtain ⟨u, us, hword, -, -⟩ := h.begins e he
  rw [hword]
  exact List.cons_ne_nil _ _

/-- **Words in a row begin with other words in a row exactly when their elements do.** -/
theorem prefix_flatMap_iff (h : SelfSynchronizing word leads p) {es fs : List α} (hes : ∀ e ∈ es, p e)
    (hfs : ∀ f ∈ fs, p f) : es.flatMap word <+: fs.flatMap word ↔ es <+: fs := by
  induction es generalizing fs with
  | nil => simp
  | cons e es ih =>
    have he : p e := hes e List.mem_cons_self
    cases fs with
    | nil => simp [h.word_ne_nil he]
    | cons f fs =>
      have hf : p f := hfs f List.mem_cons_self
      rw [List.flatMap_cons, List.flatMap_cons, List.cons_prefix_cons]
      have htail := ih (fun e he => hes e (List.mem_cons_of_mem _ he)) (fun f hf => hfs f (List.mem_cons_of_mem _ hf))
      constructor
      · intro hpre
        -- both first words begin the second text, and so one of them begins the other
        have hfirst : word e <+: word f ++ fs.flatMap word := (List.prefix_append _ _).trans hpre
        have hef : e = f := by
          rcases List.prefix_or_prefix_of_prefix hfirst (List.prefix_append _ _) with hle | hle
          · exact h.eq_of_prefix e f he hf hle
          · exact (h.eq_of_prefix f e hf he hle).symm
        subst hef
        exact ⟨rfl, htail.1 ((List.prefix_append_right_inj _).1 hpre)⟩
      · rintro ⟨rfl, hpre⟩
        exact (List.prefix_append_right_inj _).2 (htail.2 hpre)

/-! ## Searching -/

section

variable [DecidableEq κ]

theorem firstOccurrence_cons (needle : List κ) (u : κ) (us : List κ) :
    View.firstOccurrence needle (u :: us) =
      if needle <+: u :: us then some 0 else (View.firstOccurrence needle us).map (· + 1) := by
  simp only [View.firstOccurrence, List.isPrefixOf_iff_prefix]

/-- a needle that begins with a leading unit is not found where none leads -/
theorem firstOccurrence_skip {v : κ} (hv : leads v = true) (vs : List κ) {us : List κ}
    (hus : ∀ u ∈ us, leads u = false) (ws : List κ) :
    View.firstOccurrence (v :: vs) (us ++ ws) = (View.firstOccurrence (v :: vs) ws).map (· + us.length) := by
  induction us with
  | nil => simp
  | cons u us ih =>
    have hne : v ≠ u := by
      rintro rfl
      exact absurd ((hus v List.mem_cons_self).symm.trans hv) (by decide)
    have hnot : ¬ v :: vs <+: u :: (us ++ ws) := fun hpre => hne (List.cons_prefix_cons.1 hpre).1
    rw [List.cons_append, firstOccurrence_cons, if_neg hnot, ih fun w hw => hus w (List.mem_cons_of_mem _ hw),
      Option.map_map]
    rfl

variable [DecidableEq α]

/-- **Searching words is searching elements.** -/
theorem firstOccurrence_flatMap (h : SelfSynchronizing word leads p) {needle es : List α}
    (hneedle : ∀ e ∈ needle, p e) (hes : ∀ e ∈ es, p e) :
    View.firstOccurrence (needle.flatMap word) (es.flatMap word) =
      (View.firstOccurrence needle es).map fun n => extent word (es.take n) := by
  cases hn : needle with
  | nil =>
    rw [List.flatMap_nil, View.firstOccurrence_nil, View.firstOccurrence_nil]
    rfl
  | cons first others =>
    subst hn
    obtain ⟨v, vs, hfirst, hv, -⟩ := h.begins first (hneedle first List.mem_cons_self)
    have hunits : (first :: others).flatMap word = v :: (vs ++ others.flatMap word) := by
      rw [List.flatMap_cons, hfirst, List.cons_append]
    induction es with
    | nil =>
      rw [hunits]
      rfl
    | cons e es ih =>
      obtain ⟨u, us, hword, -, hus⟩ := h.begins e (hes e List.mem_cons_self)
      have htext : (e :: es).flatMap word = u :: (us ++ es.flatMap word) := by
        rw [List.flatMap_cons, hword, List.cons_append]
      have hhere := h.prefix_flatMap_iff hneedle hes
      rw [htext] at hhere
      have ih := ih fun f hf => hes f (List.mem_cons_of_mem _ hf)
      rw [firstOccurrence_cons, htext, firstOccurrence_cons]
      by_cases hpre : first :: others <+: e :: es
      · rw [if_pos hpre, if_pos (hhere.2 hpre)]
        rfl
      · -- not at this element, and not inside its word: the search goes on behind it
        rw [if_neg hpre, if_neg fun hunitsPre => hpre (hhere.1 hunitsPre), hunits, firstOccurrence_skip hv _ hus,
          ← hunits, ih, Option.map_map, Option.map_map, Option.map_map]
        congr 1
        funext n
        simp only [Function.comp_apply, List.take_succ_cons, extent_cons, hword, List.length_cons]
        omega

end

end SelfSynchronizing

end SliceParser
