/-
SCANS: what is asked of a view, found place by place on the base that its window lies on.

A loop that reads a base by index sees all of it, and only the bounds of the loop keep it inside the window. Here are the
loops that go along the base. Each finds just what the view is asked for, so none of them sees what lies around.

- `agrees`: a loop that compares two readers place by place. `seek`: one that tries one place after the other. Neither
  knows of windows. `compareUnits_eq_agrees`, `seek_eq`: **what they find within their bounds.**
- `Text.compareAlong`, `Text.foldAlong`, `Text.findAlong`: the loops of a text along its source, and `Text.stridesFrom`
  for its elements. `Text.readAlong`: **they find what a text is asked for.**
- `Bytes.compareAlong`, `Bytes.findAlong`, `Bytes.octetsFrom`: the loops of octets along a part of a buffer, which holds
  nothing behind its end. `Bytes.readAlong`: **they find what octets are asked for.**
-/
import SliceParser.Proofs.View.Comparison
import SliceParser.Proofs.View.Coordinates

namespace SliceParser

namespace View

/-! ## Loops over places -/

section

variable {κ : Type} [DecidableEq κ]

/-- the places from `i` up to `n` hold the same units here and there; a place that holds none agrees with no other -/
def agrees (ours theirs : Nat → Option κ) (n i : Nat) : Bool :=
  if i < n then
    match ours i, theirs i with
    | some u, some w => if u = w then agrees ours theirs n (i + 1) else false
    | _, _ => false
  else true
termination_by n - i

/-- the first place from `i` on, with room for `n` units in front of `stop`, that agrees with what is sought -/
def seek (ours theirs : Nat → Option κ) (n stop i : Nat) : Option Nat :=
  if i + n ≤ stop then
    if agrees (fun j => ours (i + j)) theirs n 0 then some i else seek ours theirs n stop (i + 1)
  else none
termination_by stop + 1 - i

/-- how a comparison ends that finds no difference -/
def verdict (ours theirs : Nat) : Comparison :=
  if ours < theirs then .incomplete else .ok

/-- places that hold the units of two lists agree where the lists do -/
theorem agrees_eq {ours theirs : Nat → Option κ} {us ws : List κ} {n i : Nat} (hn : n ≤ us.length) (hn' : n ≤ ws.length)
    (hours : ∀ j < n, ours j = us[j]?) (htheirs : ∀ j < n, theirs j = ws[j]?) :
    agrees ours theirs n i = decide ((us.take n).drop i = (ws.take n).drop i) := by
  induction hleft : n - i generalizing i with
  | zero =>
    have hend : ∀ vs : List κ, (vs.take n).drop i = [] := fun vs => by
      rw [List.drop_eq_nil_iff, List.length_take]
      omega
    rw [agrees, if_neg (by omega), hend, hend]
    rfl
  | succ left ih =>
    have hi : i < n := by omega
    have hstep : ∀ vs : List κ, (h : n ≤ vs.length) →
        (vs.take n).drop i = vs[i] :: (vs.take n).drop (i + 1) := fun vs h => by
      rw [List.drop_eq_getElem_cons (by rw [List.length_take]; omega), List.getElem_take]
    rw [agrees, if_pos hi, hours i hi, htheirs i hi, List.getElem?_eq_getElem (by omega),
      List.getElem?_eq_getElem (by omega), hstep us hn, hstep ws hn', ih (by omega)]
    simp only [List.cons.injEq, Bool.decide_and]
    split_ifs with hunit <;> simp [hunit]

/-- comparing as many units as both have, and then the lengths, is comparing -/
theorem compareUnits_eq_verdict (us ws : List κ) :
    compareUnits us ws = if us.take (min us.length ws.length) = ws.take (min us.length ws.length)
      then verdict us.length ws.length else .error := by
  induction us generalizing ws with
  | nil => cases ws <;> simp [compareUnits, verdict]
  | cons u us ih =>
    cases ws with
    | nil => simp [compareUnits, verdict]
    | cons w ws =>
      rw [compareUnits, List.length_cons, List.length_cons, Nat.add_min_add_right, List.take_succ_cons,
        List.take_succ_cons, ih]
      by_cases hunit : u = w <;> simp [hunit, verdict]

theorem compareUnits_eq_agrees {ours theirs : Nat → Option κ} {us ws : List κ}
    (hours : ∀ j < us.length, ours j = us[j]?) (htheirs : ∀ j < ws.length, theirs j = ws[j]?) :
    compareUnits us ws =
      if agrees ours theirs (min us.length ws.length) 0 then verdict us.length ws.length else .error := by
  rw [compareUnits_eq_verdict, agrees_eq (Nat.min_le_left _ _) (Nat.min_le_right _ _)
    (fun j hj => hours j (lt_of_lt_of_le hj (Nat.min_le_left _ _)))
    (fun j hj => htheirs j (lt_of_lt_of_le hj (Nat.min_le_right _ _)))]
  simp only [List.drop_zero, decide_eq_true_eq]

/-- **Trying the places one after the other finds the first occurrence.** -/
theorem seek_eq {ours theirs : Nat → Option κ} {us ws : List κ} {i : Nat}
    (hours : ∀ j < us.length, ours (i + j) = us[j]?) (htheirs : ∀ j < ws.length, theirs j = ws[j]?) :
    seek ours theirs ws.length (i + us.length) i = (firstOccurrence ws us).map (i + ·) := by
  induction us generalizing i with
  | nil =>
    cases ws with
    | nil => simp [seek, agrees, firstOccurrence]
    | cons w ws =>
      have hroom : ¬ i + (w :: ws).length ≤ i + ([] : List κ).length := by simp
      rw [seek, if_neg hroom]
      rfl
  | cons u us ih =>
    have hbehind : ∀ j < us.length, ours (i + 1 + j) = us[j]? := fun j hj => by
      have hj' := hours (j + 1) (by simpa using hj)
      rwa [List.getElem?_cons_succ, Nat.add_comm j 1, ← Nat.add_assoc] at hj'
    have hnext := ih hbehind
    rw [Nat.add_right_comm] at hnext
    rw [seek, firstOccurrence, List.length_cons, ← Nat.add_assoc, hnext]
    by_cases hroom : ws.length ≤ (u :: us).length
    · have hhere : agrees (fun j => ours (i + j)) theirs ws.length 0 = ws.isPrefixOf (u :: us) := by
        rw [agrees_eq hroom le_rfl (fun j hj => hours j (lt_of_lt_of_le hj hroom)) htheirs, List.drop_zero,
          List.drop_zero, List.take_length, Bool.eq_iff_iff, decide_eq_true_eq, List.isPrefixOf_iff_prefix,
          List.prefix_iff_eq_take, eq_comm]
      rw [if_pos (by simpa [Nat.add_assoc] using hroom), hhere]
      split_ifs
      · rfl
      · rw [Option.map_map]
        congr 1
        funext j
        simp only [Function.comp_apply]
        omega
    · -- without room here, there is none behind either
      have hnone : ∀ vs : List κ, vs.length < ws.length → firstOccurrence ws vs = none := fun vs hvs => by
        rw [firstOccurrence_eq_none]
        intro k _ hpre
        have hle := hpre.length_le
        rw [List.length_drop] at hle
        omega
      rw [List.length_cons] at hroom
      have hhere : ¬ ws.isPrefixOf (u :: us) = true := fun hpre => by
        have hle := (List.isPrefixOf_iff_prefix.1 hpre).length_le
        rw [List.length_cons] at hle
        omega
      rw [if_neg (by omega), if_neg hhere, hnone us (by omega)]
      rfl

end

theorem walk_map {α β : Type} (f : α → β) (stop count seen : Nat) (places : List (Nat × α)) :
    walk stop count seen (places.map (Prod.map id f)) = walk stop count seen places := by
  induction places generalizing seen with
  | nil => rfl
  | cons place places ih => simp [walk, ih]

end View

open View

/-! ## Texts along their sources -/

namespace Text

/-- as many units as both have, and then the lengths -/
def compareAlong (v literal : Text) : Comparison :=
  if agrees (fun i => v.base[v.start + i]?) (fun i => literal.base[literal.start + i]?)
    (min (View.length v) (View.length literal)) 0
  then verdict (View.length v) (View.length literal) else .error

/-- the elements of a literal of `size` units, as they come with their offsets, each against as many units of the
source; one that goes on beyond the end is not looked at -/
def foldAlong (v : Text) (size : Nat) : List (Nat × Units) → Comparison
  | [] => verdict (View.length v) size
  | (offset, theirs) :: rest =>
    if View.length v < offset + theirs.length then verdict (View.length v) size
    else if LowerCase.lower ((v.base.drop (v.start + offset)).take theirs.length) = LowerCase.lower theirs then
      v.foldAlong size rest
    else .error

def findAlong (v needle : Text) : Option Nat :=
  (seek (fun i => v.base[i]?) (fun i => needle.base[needle.start + i]?) (View.length needle) v.stop v.start).map
    (· - v.start)

theorem base_eq_content {v : Text} : ∀ i < (View.content v).length, v.base[v.start + i]? = (View.content v)[i]? := by
  intro i hi
  rw [View.length_content] at hi
  exact (getElem?_content v hi).symm

theorem compare_eq_along (v literal : Text) : View.compare v literal = v.compareAlong literal := by
  rw [View.compare, compareUnits_eq_agrees base_eq_content base_eq_content, View.length_content, View.length_content]
  rfl

theorem foldAlong_placed {v : Text} {start size : Nat} {es : List Element} (hstart : start ≤ View.length v)
    (hsize : size = start + extent Element.units es) :
    v.foldAlong size ((placed Element.units start es).map (Prod.map id Element.units)) =
      compareFolded ((View.content v).drop start) es := by
  induction es generalizing start with
  | nil =>
    rw [extent_nil] at hsize
    exact if_neg (by omega)
  | cons e es ih =>
    have hpos : 0 < e.units.length := List.length_pos_of_ne_nil e.units_ne_nil
    rw [extent_cons] at hsize
    have hunits : (Alphabet.units e : Units) = e.units := rfl
    rw [placed, List.map_cons, Prod.map_apply, foldAlong, compareFolded, hunits]
    dsimp only [id]
    have hshort : min e.units.length (View.length v - start) < e.units.length ↔
        View.length v < start + e.units.length := by omega
    rw [List.length_take, List.length_drop, View.length_content, if_congr hshort rfl rfl]
    by_cases hend : View.length v < start + e.units.length
    · -- the element goes on beyond the end of the window, and so does the literal
      rw [if_pos hend, if_pos hend, verdict, if_pos (by omega)]
    · have hours := take_base v (Nat.le_of_not_lt hend)
      rw [if_neg hend, if_neg hend, List.drop_drop, ih (by omega) (by omega)]
      simp only [hours]
      rfl

theorem compareNoCase_eq_along (v literal : Text) :
    View.compareNoCase v literal = v.foldAlong (View.length literal) (literal.stridesFrom 0) := by
  have hsize : View.length literal = 0 + extent Element.units (View.members literal) := by
    rw [Nat.zero_add]
    exact (View.extent_members literal).symm
  have hplaced := foldAlong_placed (Nat.zero_le (View.length v)) hsize
  rw [List.drop_zero] at hplaced
  rw [stridesFrom_eq]
  exact hplaced.symm

theorem findSubstring_eq_along (v needle : Text) : View.findSubstring v needle = v.findAlong needle := by
  have hstop : v.stop = v.start + (View.content v).length := by
    have hle := v.start_le_stop
    have hlength : View.length v = v.stop - v.start := rfl
    rw [View.length_content]
    omega
  rw [findAlong, hstop, ← View.length_content, seek_eq base_eq_content base_eq_content, Option.map_map]
  have hback : (fun i => i - v.start) ∘ (fun i => v.start + i) = id := by
    funext i
    exact Nat.add_sub_cancel_left v.start i
  rw [hback, Option.map_id]
  rfl

/-- what a text and a literal are asked for is what the loops along their sources find -/
structure ReadAlong (v w : Text) : Prop where
  elements_eq : (View.elements v).map (Prod.map id Element.units) = v.stridesFrom 0
  contains_eq : ∀ e, View.contains v e = (v.stridesFrom 0).any fun place => decide (place.2 = e.units)
  sliceIndex_eq : ∀ count, View.sliceIndex v count = walk (View.length v) count 0 (v.stridesFrom 0)
  compare_eq : View.compare v w = v.compareAlong w
  compareNoCase_eq : View.compareNoCase v w = v.foldAlong (View.length w) (w.stridesFrom 0)
  findSubstring_eq : View.findSubstring v w = v.findAlong w

theorem units_injective : Function.Injective Element.units := by
  intro e e' h
  cases e <;> cases e' <;> simp_all [Element.units]

/-- **What a text is asked for is what is found along its source.** -/
theorem readAlong (v w : Text) : v.ReadAlong w where
  elements_eq := v.stridesFrom_eq.symm
  contains_eq e := by
    rw [stridesFrom_eq, List.any_map, View.contains, ← View.map_snd_elements, List.contains_eq_any_beq, List.any_map]
    congr 1
    funext place
    change decide (e = place.2) = decide (place.2.units = e.units)
    rw [decide_eq_decide, units_injective.eq_iff, eq_comm]
  sliceIndex_eq count := by rw [stridesFrom_eq, walk_map, sliceIndex_eq_walk]
  compare_eq := compare_eq_along v w
  compareNoCase_eq := compareNoCase_eq_along v w
  findSubstring_eq := findSubstring_eq_along v w

end Text

/-! ## Octets along their buffers -/

namespace Bytes

/-- what a part of a buffer holds at an index: nothing behind its end, whatever the buffer has there -/
def octetAt (v : Bytes) (i : Nat) : Option UInt8 :=
  if i < View.length v then v.base[v.start + i]? else none

/-- as many octets as both have, each read in some way, and then the lengths -/
def compareAlong (read : UInt8 → UInt8) (v literal : Bytes) : Comparison :=
  if agrees (fun i => (v.octetAt i).map read) (fun i => (literal.octetAt i).map read)
    (min (View.length v) (View.length literal)) 0
  then verdict (View.length v) (View.length literal) else .error

def findAlong (v needle : Bytes) : Option Nat :=
  seek v.octetAt needle.octetAt (View.length needle) (View.length v) 0

/-- the octets with their offsets, from one offset on -/
def octetsFrom (v : Bytes) (i : Nat) : List (Nat × UInt8) :=
  if i < View.length v then
    match v.octetAt i with
    | some b => (i, b) :: v.octetsFrom (i + 1)
    | none => []
  else []
termination_by View.length v - i

theorem octetAt_eq (v : Bytes) (i : Nat) : v.octetAt i = (View.content v)[i]? := by
  change _ = ((v.base.drop v.start).take (View.length v))[i]?
  rw [octetAt]
  split_ifs with hi
  · rw [List.getElem?_take_of_lt hi, List.getElem?_drop]
  · rw [List.getElem?_take_eq_none (Nat.le_of_not_lt hi)]

theorem compareUnits_map_eq_along (read : UInt8 → UInt8) (v literal : Bytes) :
    compareUnits ((View.content v).map read) ((View.content literal).map read) = compareAlong read v literal := by
  have hread : ∀ w : Bytes, ∀ i < ((View.content w).map read).length,
      (w.octetAt i).map read = ((View.content w).map read)[i]? := fun w i _ => by
    rw [octetAt_eq, List.getElem?_map]
  rw [compareUnits_eq_agrees (hread v) (hread literal), List.length_map, List.length_map, View.length_content,
    View.length_content]
  rfl

theorem compare_eq_along (v literal : Bytes) : View.compare v literal = compareAlong id v literal := by
  rw [← compareUnits_map_eq_along, List.map_id, List.map_id, View.compare]

theorem compareNoCase_eq_along (v literal : Bytes) :
    View.compareNoCase v literal = compareAlong asciiLower v literal := by
  rw [← compareUnits_map_eq_along]
  exact compareFolded_octets (View.content v) (View.content literal)

theorem findSubstring_eq_along (v needle : Bytes) : View.findSubstring v needle = v.findAlong needle := by
  have hours : ∀ i < (View.content v).length, v.octetAt (0 + i) = (View.content v)[i]? := fun i _ => by
    rw [Nat.zero_add, octetAt_eq]
  have hseek := seek_eq hours fun i _ => octetAt_eq needle i
  rw [Nat.zero_add, View.length_content, View.length_content] at hseek
  rw [findAlong, hseek, View.findSubstring]
  simp only [Nat.zero_add, Option.map_id']

theorem octetsFrom_eq (v : Bytes) (i : Nat) :
    v.octetsFrom i = placed (fun u => [u]) i ((View.content v).drop i) := by
  induction hleft : View.length v - i generalizing i with
  | zero =>
    have hend : (View.content v).drop i = [] := by
      rw [List.drop_eq_nil_iff, View.length_content]
      omega
    rw [octetsFrom, if_neg (by omega), hend]
    rfl
  | succ left ih =>
    have hi : i < (View.content v).length := by
      rw [View.length_content]
      omega
    rw [octetsFrom, if_pos (by omega), octetAt_eq, List.getElem?_eq_getElem hi, List.drop_eq_getElem_cons hi]
    exact congrArg _ (ih (i + 1) (by omega))

theorem elements_eq_along (v : Bytes) : View.elements v = v.octetsFrom 0 :=
  (v.octetsFrom_eq 0).symm

/-- what octets and a literal are asked for is what the loops along their buffers find -/
structure ReadAlong (v w : Bytes) : Prop where
  elements_eq : View.elements v = v.octetsFrom 0
  contains_eq : ∀ b, View.contains v b = (v.octetsFrom 0).any fun place => decide (place.2 = b)
  sliceIndex_eq : ∀ count, View.sliceIndex v count = if count ≤ View.length v then some count else none
  compare_eq : View.compare v w = compareAlong id v w
  compareNoCase_eq : View.compareNoCase v w = compareAlong asciiLower v w
  findSubstring_eq : View.findSubstring v w = v.findAlong w

/-- **What octets are asked for is what is found along their buffer.** -/
theorem readAlong (v w : Bytes) : v.ReadAlong w where
  elements_eq := elements_eq_along v
  contains_eq b := by
    rw [← elements_eq_along, View.contains, ← View.map_snd_elements, List.contains_eq_any_beq, List.any_map]
    congr 1
    funext place
    change decide (b = place.2) = decide (place.2 = b)
    rw [decide_eq_decide, eq_comm]
  sliceIndex_eq count := by
    rw [← View.length_content]
    rfl
  compare_eq := compare_eq_along v w
  compareNoCase_eq := compareNoCase_eq_along v w
  findSubstring_eq := findSubstring_eq_along v w

end Bytes

end SliceParser
