/-
LITERALS WITH CASE ASIDE: when a literal matches in another case, and how that goes with a match as it stands.

- `compareFolded_append`: a match and a mismatch are final, whatever follows the input.
- `compareFolded_eq_incomplete`: more input is asked for where the input ends inside an element of the literal, and
  matches all of it in front of that element.
- `compareNoCase_eq_compare`: **where the literal matches as it stands, or still may, case does not change the
  verdict.**
- `FoldsAlike`: two elements of one length that are the same when folded. `compareFolded_of_foldsAlike`: elements that
  fold alike one by one match each other.
- `CaseReading`: an alphabet in which whatever matches some elements is read as elements that fold alike. Texts are read
  so, as a pair is matched by nothing but a pair, and octets, as each is an element by itself.
- `compareNoCase_symm`: so **a match goes both ways**: what matched the literal is itself matched by the literal.
-/
import SliceParser.Proofs.Unicode.ElementCase
import SliceParser.Proofs.View.Comparison
import SliceParser.Proofs.View.Rereading

namespace SliceParser

namespace View

section

variable {κ α : Type} [Alphabet κ α]

/-! ## Elements that fold alike -/

/-- as long as each other, and the same when folded -/
def FoldsAlike (κ : Type) {α : Type} [Alphabet κ α] (e f : α) : Prop :=
  (Alphabet.units e : List κ).length = (Alphabet.units f : List κ).length ∧
    Alphabet.fold (Alphabet.units e : List κ) = Alphabet.fold (Alphabet.units f : List κ)

theorem FoldsAlike.refl (e : α) : FoldsAlike κ e e :=
  ⟨rfl, rfl⟩

theorem FoldsAlike.symm {e f : α} (h : FoldsAlike κ e f) : FoldsAlike κ f e :=
  ⟨h.1.symm, h.2.symm⟩

/-! ## Verdicts -/

variable [DecidableEq κ] {us : List κ} {es : List α}

theorem compareFolded_cons (us : List κ) (e : α) (es : List α) :
    compareFolded us (e :: es) =
      if us.length < (Alphabet.units e : List κ).length then .incomplete
      else if Alphabet.fold (us.take (Alphabet.units e : List κ).length) = Alphabet.fold (Alphabet.units e : List κ)
      then compareFolded (us.drop (Alphabet.units e : List κ).length) es
      else .error := by
  have hshort : (us.take (Alphabet.units e : List κ).length).length < (Alphabet.units e : List κ).length ↔
      us.length < (Alphabet.units e : List κ).length := by
    rw [List.length_take]
    omega
  simp only [compareFolded, hshort]

/-- a verdict other than the call for more input is final -/
theorem compareFolded_append (h : compareFolded us es ≠ .incomplete) (more : List κ) :
    compareFolded (us ++ more) es = compareFolded us es := by
  induction es generalizing us with
  | nil => rfl
  | cons e es ih =>
    by_cases hshort : us.length < (Alphabet.units e : List κ).length
    · rw [compareFolded_cons, if_pos hshort] at h
      exact absurd rfl h
    · have hle : (Alphabet.units e : List κ).length ≤ us.length := Nat.le_of_not_lt hshort
      have hlonger : ¬ (us ++ more).length < (Alphabet.units e : List κ).length := by
        rw [List.length_append]
        omega
      rw [compareFolded_cons, if_neg hshort] at h
      rw [compareFolded_cons, compareFolded_cons, if_neg hshort, if_neg hlonger, List.take_append_of_le_length hle,
        List.drop_append_of_le_length hle]
      split_ifs with hfold
      · rw [if_pos hfold] at h
        exact ih h
      · rfl

/-- more input is asked for where it ends inside an element of the literal, and matches what is in front of that -/
theorem compareFolded_eq_incomplete :
    compareFolded us es = .incomplete ↔ ∃ front e back, es = front ++ e :: back ∧ compareFolded us front = .ok ∧
      us.length < extent (Alphabet.units : α → List κ) (front ++ [e]) := by
  induction es generalizing us with
  | nil => simp [compareFolded]
  | cons e es ih =>
    by_cases hshort : us.length < (Alphabet.units e : List κ).length
    · rw [compareFolded_cons, if_pos hshort]
      exact iff_of_true rfl ⟨[], e, es, rfl, rfl, by simpa using hshort⟩
    · have hle : (Alphabet.units e : List κ).length ≤ us.length := Nat.le_of_not_lt hshort
      rw [compareFolded_cons, if_neg hshort]
      constructor
      · intro h
        split_ifs at h with hfold
        obtain ⟨front, f, back, rfl, hfront, hends⟩ := ih.1 h
        refine ⟨e :: front, f, back, rfl, compareFolded_cons_ok.2 ⟨hle, hfold, hfront⟩, ?_⟩
        rw [List.length_drop] at hends
        rw [List.cons_append, extent_cons]
        omega
      · intro h
        obtain ⟨front, f, back, hsplit, hfront, hends⟩ := h
        cases front with
        | nil =>
          obtain ⟨rfl, -⟩ := List.cons.inj hsplit
          rw [List.nil_append, extent_cons, extent_nil] at hends
          omega
        | cons g front =>
          obtain ⟨rfl, rfl⟩ := List.cons.inj hsplit
          obtain ⟨-, hfold, hrest⟩ := compareFolded_cons_ok.1 hfront
          rw [if_pos hfold]
          refine ih.2 ⟨front, f, back, rfl, hrest, ?_⟩
          rw [List.cons_append, extent_cons] at hends
          rw [List.length_drop]
          omega

/-- elements match those that they fold alike with, whatever follows -/
theorem compareFolded_of_foldsAlike {fs : List α} (h : List.Forall₂ (FoldsAlike κ) fs es) (more : List κ) :
    compareFolded (fs.flatMap (Alphabet.units : α → List κ) ++ more) es = .ok := by
  induction h with
  | nil => rfl
  | @cons f e fs es hhead _ ih =>
    have hlength : (Alphabet.units e : List κ).length = (Alphabet.units f : List κ).length := hhead.1.symm
    rw [List.flatMap_cons, List.append_assoc, compareFolded_cons_ok, hlength, List.take_left, List.drop_left]
    refine ⟨?_, hhead.2, ih⟩
    rw [List.length_append]
    exact Nat.le_add_right _ _

/-- **A match as it stands is a match with case aside**, and what is not decided as it stands is not either. -/
theorem compareFolded_eq_compareUnits (h : compareUnits us (es.flatMap (Alphabet.units : α → List κ)) ≠ .error) :
    compareFolded us es = compareUnits us (es.flatMap (Alphabet.units : α → List κ)) := by
  have hself : ∀ more, compareFolded (es.flatMap (Alphabet.units : α → List κ) ++ more) es = .ok :=
    compareFolded_of_foldsAlike (List.forall₂_same.2 fun e _ => FoldsAlike.refl e)
  cases hverdict : compareUnits us (es.flatMap (Alphabet.units : α → List κ)) with
  | error => exact absurd hverdict h
  | ok =>
    obtain ⟨more, rfl⟩ := compareUnits_eq_ok.1 hverdict
    exact hself more
  | incomplete =>
    obtain ⟨⟨more, hmore⟩, hne⟩ := compareUnits_eq_incomplete.1 hverdict
    by_contra hfinal
    -- the rest of the literal would not change the verdict, and with it the literal matches
    have hok : compareFolded us es = .ok := by
      rw [← compareFolded_append hfinal more, hmore, ← List.append_nil (es.flatMap _)]
      exact hself []
    have hle := extent_le_of_compareFolded hok
    rw [extent, ← hmore, List.length_append] at hle
    have hnil : more = [] := List.length_eq_zero_iff.1 (by omega)
    rw [hnil, List.append_nil] at hmore
    exact hne hmore

end

/-! ## What matches a literal -/

/-- whatever matches elements that can be read is read as elements that fold alike with them -/
class CaseReading (κ : Type) {α : Type} [Alphabet κ α] [DecidableEq κ] : Prop where
  segment_take : ∀ {us : List κ} {es : List α}, Alphabet.segment (es.flatMap (Alphabet.units : α → List κ)) = es →
    compareFolded us es = .ok →
      List.Forall₂ (FoldsAlike κ) (Alphabet.segment (us.take (extent (Alphabet.units : α → List κ) es))) es

/-- what matches a literal with case aside begins with a low surrogate just when the literal does -/
theorem beginsLow_of_compareFolded {us : Units} {es : List Element} (h : compareFolded us es = .ok) :
    Units.beginsLow (us.take (extent Element.units es)) = Units.beginsLow (es.flatMap Element.units) := by
  cases es with
  | nil => rfl
  | cons e es =>
    obtain ⟨hlength, hfold, -⟩ := compareFolded_cons_ok.1 h
    have hfold : LowerCase.lower (us.take e.units.length) = LowerCase.lower e.units := hfold
    have hlength : e.units.length ≤ us.length := hlength
    have hne : us.take e.units.length ≠ [] := by
      rw [← List.length_pos_iff, List.length_take, Nat.min_eq_left hlength, List.length_pos_iff]
      exact e.units_ne_nil
    have hpre : us.take e.units.length <+: us.take (extent Element.units (e :: es)) := by
      rw [extent_cons]
      exact List.take_prefix_take_left (Nat.le_add_right _ _)
    calc Units.beginsLow (us.take (extent Element.units (e :: es)))
        = Units.beginsLow (us.take e.units.length) := Units.beginsLow_mono hne hpre
      _ = Units.beginsLow (LowerCase.lower (us.take e.units.length)) := (LowerCase.beginsLow_lower _).symm
      _ = Units.beginsLow e.units := by rw [hfold, LowerCase.beginsLow_lower]
      _ = Units.beginsLow ((e :: es).flatMap Element.units) := by
          rw [List.flatMap_cons, Units.beginsLow_mono e.units_ne_nil (List.prefix_append _ _)]

instance : CaseReading UInt16 where
  segment_take {us es} hes hok := by
    have hes : segment (es.flatMap Element.units) = es := hes
    change List.Forall₂ (FoldsAlike UInt16) (segment (us.take (extent Element.units es))) es
    induction es generalizing us with
    | nil => exact .nil
    | cons e es ih =>
      obtain ⟨hlength, hfold, hrest⟩ := compareFolded_cons_ok.1 hok
      have hlength : e.units.length ≤ us.length := hlength
      have hfold : LowerCase.lower (us.take e.units.length) = LowerCase.lower e.units := hfold
      have hrest : compareFolded (us.drop e.units.length) es = .ok := hrest
      have hparts : segment ((e :: es).flatMap Element.units) = [e] ++ es := hes
      obtain ⟨he, htail⟩ := segment_of_append hparts
      rw [List.flatMap_singleton] at he
      -- the piece that stands against the element is one element
      have hpiece : (us.take e.units.length).length = e.units.length := List.length_take_of_le hlength
      obtain ⟨f, hf⟩ := LowerCase.segment_of_lower he hpiece hfold
      have hunits : f.units = us.take e.units.length := by
        rw [← flatMap_units_segment (us.take e.units.length), hf, List.flatMap_singleton]
      have halike : FoldsAlike UInt16 f e := by
        refine ⟨?_, ?_⟩
        · change f.units.length = e.units.length
          rw [hunits, hpiece]
        · change LowerCase.lower f.units = LowerCase.lower e.units
          rw [hunits, hfold]
      -- and it makes no pair with what follows, as the element makes none
      have hwhole :
          ¬ Units.Torn (us.take e.units.length) ((us.drop e.units.length).take (extent Element.units es)) := by
        intro ⟨hhigh, hlow⟩
        rw [← LowerCase.endsHigh_lower, hfold, LowerCase.endsHigh_lower] at hhigh
        rw [beginsLow_of_compareFolded hrest] at hlow
        refine segment_append_iff.1 ?_ ⟨hhigh, hlow⟩
        rw [he, htail, List.singleton_append, ← hes, List.flatMap_cons]
      rw [extent_cons, List.take_add, segment_append hwhole, hf]
      exact .cons halike (ih htail hrest htail)

instance : CaseReading UInt8 where
  segment_take {us es} _ hok := by
    change List.Forall₂ (FoldsAlike UInt8) (us.take (extent (Alphabet.units : UInt8 → List UInt8) es)) es
    induction es generalizing us with
    | nil => exact .nil
    | cons e es ih =>
      obtain ⟨hlength, hfold, hrest⟩ := compareFolded_cons_ok.1 hok
      cases us with
      | nil => exact nomatch hlength
      | cons u us =>
        rw [extent_cons, Nat.add_comm]
        exact .cons ⟨rfl, hfold⟩ (ih (List.flatMap_singleton' es) hrest)

/-! ## Views -/

variable {V κ α ω : Type} [Position ω] [View V κ ω] [Alphabet κ α] [DecidableEq κ] {input literal : V}

theorem compareNoCase_eq_compare (h : compare input literal ≠ .error) :
    compareNoCase input literal = compare input literal := by
  rw [compare, ← flatMap_units_members literal] at h ⊢
  exact compareFolded_eq_compareUnits h

theorem foldsAlike_members [CaseReading κ] (h : compareNoCase input literal = .ok) :
    List.Forall₂ (FoldsAlike κ) (members (take input (length literal)) : List α) (members literal) := by
  have hread : Alphabet.segment ((members literal).flatMap (Alphabet.units : α → List κ)) = members literal := by
    rw [flatMap_units_members]
    rfl
  have halike := CaseReading.segment_take hread h
  rwa [extent_members, ← content_take] at halike

/-- **A match goes both ways**: the literal matches what matched it. -/
theorem compareNoCase_symm [CaseReading κ] (h : compareNoCase input literal = .ok) :
    compareNoCase literal (take input (length literal)) = .ok := by
  have hflipped : List.Forall₂ (FoldsAlike κ) (members literal : List α) (members (take input (length literal))) :=
    (foldsAlike_members h).flip.imp fun _ _ hfolds => FoldsAlike.symm hfolds
  have hself := compareFolded_of_foldsAlike hflipped []
  rwa [List.append_nil, flatMap_units_members] at hself

end View

end SliceParser
