/-
POSITIONS: a rendering names the line and the column where a position of the text really lies.

- `lines` and `lineStart` are what a reader means by lines: the text split at every break, and where each of them begins.
  `spotAt` finds line, column and the text of the line in them.
- The rendering counts lines and columns forwards from the start (`lineCol_eq`), and finds the line by looking for breaks
  backwards and forwards from the position (`lineAt_eq_between`). `lines_at` is where both meet: the text splits at a
  position into closed lines, the line of the position, and others. So **both name the same line**
  (`getElem?_lines_lineCol`).
- `IsSpot`: all that a spot has to satisfy (`isSpot_spotAt`), on a break, behind one, in empty lines and at the end. The
  line and the column tell the position (`IsSpot.pos_eq`).
- `rendering_points_at_places`: **every block of a rendering is printed from the spot of its entry**, if no entry lies
  before the source. An entry beyond the source counts as lying at its end. Before the source the rendering is another
  thing: `lineAt` then shows a break as the line if the source begins with one.
-/
import Mathlib.Data.List.Induction
import Mathlib.Data.List.TakeWhile
import Mathlib.Data.Set.Function
import SliceParser.ErrorStrategy.Render

namespace SliceParser

namespace Render

/-! ## Lines -/

/-- the lines of a text, without the breaks between them -/
def lines (us : Units) : List Units := us.splitOn lineBreak

/-- how much of a text stands in lines that are closed, each with its break -/
def extentOfLines (closed : List Units) : Nat := (closed.flatMap fun line => line ++ [lineBreak]).length

/-- where a line begins, the lines counted from 1 -/
def lineStart (us : Units) (line : Nat) : Nat := extentOfLines ((lines us).take (line - 1))

theorem lines_of_unbroken {us : Units} (h : lineBreak ∉ us) : lines us = [us] :=
  List.splitOn_eq_singleton h

theorem lines_append_break (front back : Units) : lines (front ++ lineBreak :: back) = lines front ++ lines back :=
  List.splitOn_append_cons_self front back

theorem lines_cons_break (us : Units) : lines (lineBreak :: us) = [] :: lines us :=
  lines_append_break [] us

/-- a unit that is no break stands in front of the first line -/
theorem lines_cons_of_ne {u : UInt16} (h : u ≠ lineBreak) (us : Units) :
    ∃ line later, lines us = line :: later ∧ lines (u :: us) = (u :: line) :: later := by
  obtain ⟨line, later, hlines⟩ := List.exists_cons_of_ne_nil (List.splitOn_ne_nil lineBreak us)
  refine ⟨line, later, hlines, ?_⟩
  rw [lines, List.splitOn_cons_eq_if_modifyHead, if_neg (by simpa using h), hlines, List.modifyHead_cons]

theorem length_lines (us : Units) : (lines us).length = us.count lineBreak + 1 := by
  induction us with
  | nil => rfl
  | cons u us ih =>
    by_cases hu : u = lineBreak
    · rw [hu, lines_cons_break, List.length_cons, List.count_cons_self, ih]
    · obtain ⟨line, later, hlines, hcons⟩ := lines_cons_of_ne hu us
      rw [hlines] at ih
      rw [hcons, List.count_cons_of_ne hu]
      exact ih

theorem extentOfLines_cons (line : Units) (closed : List Units) :
    extentOfLines (line :: closed) = line.length + 1 + extentOfLines closed := by
  rw [extentOfLines, List.flatMap_cons, List.length_append, List.length_append]
  rfl

/-- the lines have all of the text, and one break more if the last is closed as well -/
theorem extentOfLines_lines (us : Units) : extentOfLines (lines us) = us.length + 1 := by
  induction us with
  | nil => rfl
  | cons u us ih =>
    by_cases hu : u = lineBreak
    · rw [hu, lines_cons_break, extentOfLines_cons, ih]
      exact Nat.add_comm _ _
    · obtain ⟨line, later, hlines, hcons⟩ := lines_cons_of_ne hu us
      rw [hlines, extentOfLines_cons] at ih
      rw [hcons, extentOfLines_cons, List.length_cons, List.length_cons]
      omega

/-! ## The line at a position -/

theorem lineBreak_notMem_firstLine (us : Units) : lineBreak ∉ firstLine us := by
  intro hmem
  simpa using List.mem_takeWhile_imp hmem

theorem lineBreak_notMem_lastLine (us : Units) : lineBreak ∉ lastLine us := by
  rw [lastLine, List.mem_reverse]
  exact lineBreak_notMem_firstLine us.reverse

theorem firstLine_cons_of_ne {u : UInt16} (h : u ≠ lineBreak) (us : Units) : firstLine (u :: us) = u :: firstLine us := by
  simp [firstLine, h]

theorem eq_firstLine_or (us : Units) : us = firstLine us ∨ ∃ behind, us = firstLine us ++ lineBreak :: behind := by
  induction us with
  | nil => exact Or.inl rfl
  | cons u us ih =>
    by_cases hu : u = lineBreak
    · exact Or.inr ⟨us, by simp [firstLine, hu]⟩
    · rw [firstLine_cons_of_ne hu]
      rcases ih with hall | ⟨behind, hbehind⟩
      · exact Or.inl (congrArg (u :: ·) hall)
      · exact Or.inr ⟨behind, congrArg (u :: ·) hbehind⟩

theorem eq_lastLine_or (us : Units) : us = lastLine us ∨ ∃ before, us = before ++ lineBreak :: lastLine us := by
  rcases eq_firstLine_or us.reverse with hall | ⟨before, hbefore⟩
  · left
    have h := congrArg List.reverse hall
    rwa [List.reverse_reverse] at h
  · right
    refine ⟨before.reverse, ?_⟩
    have h := congrArg List.reverse hbefore
    rwa [List.reverse_reverse, List.reverse_append, List.reverse_cons, List.append_assoc] at h

/-- the first line goes on to the first break -/
theorem lines_of_begun {begun : Units} (h : lineBreak ∉ begun) (back : Units) :
    ∃ later, lines (begun ++ back) = (begun ++ firstLine back) :: later := by
  have hunbroken : lineBreak ∉ begun ++ firstLine back := by
    rw [List.mem_append]
    exact not_or.2 ⟨h, lineBreak_notMem_firstLine back⟩
  rcases eq_firstLine_or back with hall | ⟨behind, hbehind⟩
  · refine ⟨[], ?_⟩
    rw [← lines_of_unbroken hunbroken, ← hall]
  · refine ⟨lines behind, ?_⟩
    rw [← List.singleton_append, ← lines_of_unbroken hunbroken, ← lines_append_break, List.append_assoc, ← hbehind]

/-- Where a text divides, its lines are those that are closed in front, the one that goes on behind, and others. -/
theorem lines_at (front back : Units) :
    ∃ closed later, lines (front ++ back) = closed ++ (lastLine front ++ firstLine back) :: later ∧
      closed.length = front.count lineBreak ∧ extentOfLines closed + (lastLine front).length = front.length := by
  obtain ⟨later, hlater⟩ := lines_of_begun (lineBreak_notMem_lastLine front) back
  rcases eq_lastLine_or front with hall | ⟨before, hbefore⟩
  · refine ⟨[], later, ?_, ?_, ?_⟩
    · rw [← hall] at hlater ⊢
      exact hlater
    · exact (List.count_eq_zero.2 (hall ▸ lineBreak_notMem_lastLine front)).symm
    · rw [← hall]
      exact Nat.zero_add _
  · refine ⟨lines before, later, ?_, ?_, ?_⟩
    · conv_lhs => rw [hbefore, List.append_assoc, List.cons_append, lines_append_break, hlater]
    · conv_rhs => rw [hbefore, List.count_append, List.count_cons_self,
        List.count_eq_zero.2 (lineBreak_notMem_lastLine front)]
      exact length_lines before
    · have hlength := congrArg List.length hbefore
      rw [List.length_append, List.length_cons] at hlength
      rw [extentOfLines_lines, hlength]
      omega

theorem getElem?_lines (us : Units) (pos : Nat) : (lines us)[(us.take pos).count lineBreak]? =
    some (lastLine (us.take pos) ++ firstLine (us.drop pos)) := by
  obtain ⟨closed, later, hlines, hcount, -⟩ := lines_at (us.take pos) (us.drop pos)
  rw [List.take_append_drop] at hlines
  rw [hlines, ← hcount, List.getElem?_append_right le_rfl, Nat.sub_self, List.getElem?_cons_zero]

theorem lineStart_add_indent {us : Units} {pos : Nat} (h : pos ≤ us.length) :
    lineStart us ((us.take pos).count lineBreak + 1) + (lastLine (us.take pos)).length = pos := by
  obtain ⟨closed, later, hlines, hcount, hextent⟩ := lines_at (us.take pos) (us.drop pos)
  rw [List.take_append_drop] at hlines
  rw [List.length_take, Nat.min_eq_left h] at hextent
  rw [lineStart, Nat.add_sub_cancel, hlines, ← hcount, List.take_left]
  exact hextent

/-! ## Counting and searching -/

theorem lastLine_concat (us : Units) (u : UInt16) :
    lastLine (us ++ [u]) = if u = lineBreak then [] else lastLine us ++ [u] := by
  rw [lastLine, List.reverse_append, List.reverse_singleton, List.singleton_append, List.takeWhile_cons]
  split_ifs with hne hbreak hbreak
  · exact absurd hbreak (by simpa using hne)
  · rw [List.reverse_cons]
    rfl
  · rfl
  · exact absurd hbreak (by simpa using hne)

/-- the forward count comes to the number of breaks and to what stands behind the last of them -/
theorem lineCol_eq (us : Units) (pos : Int) :
    lineCol us pos = ((us.take pos.toNat).count lineBreak + 1, (lastLine (us.take pos.toNat)).length + 1) := by
  rw [lineCol]
  induction us.take pos.toNat using List.reverseRecOn with
  | nil => rfl
  | append_singleton front u ih =>
    rw [List.foldl_append, ih, List.foldl_cons, List.foldl_nil, advance, lastLine_concat, List.count_append]
    split_ifs with hu
    · rw [hu, List.count_singleton_self]
      rfl
    · rw [List.count_singleton, beq_false_of_ne hu, List.length_append]
      rfl

theorem lineAt_natCast (us : Units) (n : Nat) : lineAt us n = lastLine (us.take n) ++ firstLine (us.drop n) :=
  if_neg fun h => Int.not_lt.2 (Int.natCast_nonneg n) h.1

/-- the last place of a unit in front of an index -/
def lastBefore (us : Units) (u : UInt16) : Nat → Option Nat
  | 0 => none
  | i + 1 => if us[i]? = some u then some i else lastBefore us u i

/-- the last place of a unit, no further than an index; one before the text counts as its first -/
def lastIndexOf (us : Units) (u : UInt16) (i : Int) : Option Nat := lastBefore us u (i.toNat + 1)

/-- the first place of a unit from an index on -/
def indexFrom (us : Units) (u : UInt16) (i : Nat) : Option Nat :=
  if i < us.length then
    if us[i]? = some u then some i else indexFrom us u (i + 1)
  else none
termination_by us.length - i

/-- the first place of a unit from an index on; one before the text counts as its first -/
def indexOf (us : Units) (u : UInt16) (i : Int) : Option Nat := indexFrom us u i.toNat

/-- the units between two indexes, whichever of them comes first -/
def substring (us : Units) (i j : Nat) : Units := (us.drop (min i j)).take (max i j - min i j)

/-- the line around a position, found by looking for breaks on both sides of it -/
def lineBetween (us : Units) (pos : Int) : Units :=
  let start := if pos = 0 then 0 else ((lastIndexOf us lineBreak (pos - 1)).map (· + 1)).getD 0
  let stop := (indexOf us lineBreak pos).getD us.length
  substring us start stop

theorem substring_of_le {i j : Nat} (h : i ≤ j) (us : Units) : substring us i j = (us.drop i).take (j - i) := by
  rw [substring, Nat.min_eq_left h, Nat.max_eq_right h]

theorem lastLine_suffix (us : Units) : lastLine us <:+ us := by
  rw [← List.reverse_prefix, lastLine, List.reverse_reverse]
  exact List.takeWhile_prefix _

/-- behind the last break in front of an index begins its line -/
theorem start_add_lastLine (us : Units) (n : Nat) :
    ((lastBefore us lineBreak n).map (· + 1)).getD 0 + (lastLine (us.take n)).length = (us.take n).length := by
  induction n with
  | zero => rfl
  | succ n ih =>
    rw [lastBefore, List.take_add_one]
    cases hu : us[n]? with
    | none => simpa using ih
    | some u =>
      obtain ⟨hn, -⟩ := List.getElem?_eq_some_iff.1 hu
      rw [Option.toList_some, lastLine_concat]
      by_cases hbreak : u = lineBreak
      · simp [hbreak]
        omega
      · simp only [Option.some.injEq, hbreak, if_false, List.length_append, List.length_singleton]
        omega

/-- up to the first break from an index on goes its line -/
theorem stop_eq_add_firstLine (us : Units) (n : Nat) :
    (indexFrom us lineBreak n).getD us.length = (us.take n).length + (firstLine (us.drop n)).length := by
  induction hleft : us.length - n generalizing n with
  | zero =>
    have hend : us.drop n = [] := List.drop_eq_nil_iff.2 (by omega)
    rw [indexFrom, if_neg (by omega), Option.getD_none, hend, List.length_take, Nat.min_eq_right (by omega)]
    rfl
  | succ left ih =>
    have hn : n < us.length := by omega
    have hnext := ih (n + 1) (by omega)
    rw [List.length_take, Nat.min_eq_left (by omega)] at hnext
    rw [indexFrom, if_pos hn, List.getElem?_eq_getElem hn, List.drop_eq_getElem_cons hn, List.length_take,
      Nat.min_eq_left hn.le]
    by_cases hbreak : us[n] = lineBreak
    · simp [hbreak, firstLine]
    · rw [firstLine_cons_of_ne hbreak, List.length_cons, if_neg (by simpa using hbreak), hnext]
      omega

theorem firstLine_eq_take (us : Units) : firstLine us = us.take (firstLine us).length :=
  List.prefix_iff_eq_take.1 (List.takeWhile_prefix _)

/-- looking back from before the text still finds a break at its start -/
theorem lineBetween_of_neg {pos : Int} (h : pos < 0) (us : Units) :
    lineBetween us pos = if us.head? = some lineBreak then [lineBreak] else firstLine us := by
  have hzero : pos.toNat = 0 := Int.toNat_of_nonpos h.le
  have hback : (pos - 1).toNat = 0 := Int.toNat_of_nonpos (by omega)
  have hstop := stop_eq_add_firstLine us 0
  rw [List.take_zero, List.length_nil, Nat.zero_add, List.drop_zero] at hstop
  rw [lineBetween, if_neg h.ne, lastIndexOf, hback, lastBefore, lastBefore, indexOf, hzero, hstop,
    List.head?_eq_getElem?]
  by_cases hbegins : us[0]? = some lineBreak
  · obtain ⟨rest, rfl⟩ : ∃ rest, us = lineBreak :: rest := by
      rw [← List.head?_eq_getElem?] at hbegins
      exact List.head?_eq_some_iff.1 hbegins
    rw [if_pos hbegins, if_pos hbegins]
    -- the start is 1 and the stop 0, and what lies between them is the break
    simp [firstLine, substring]
  · rw [if_neg hbegins, if_neg hbegins, Option.map_none, Option.getD_none, substring_of_le (Nat.zero_le _),
      List.drop_zero, Nat.sub_zero]
    exact (firstLine_eq_take us).symm

/-- where the search backwards comes to from a position in the text -/
theorem start_natCast (us : Units) (n : Nat) :
    (if (n : Int) = 0 then 0 else ((lastIndexOf us lineBreak (n - 1)).map (· + 1)).getD 0) =
      ((lastBefore us lineBreak n).map (· + 1)).getD 0 := by
  cases n with
  | zero => rfl
  | succ n =>
    have hne : ((n + 1 : Nat) : Int) ≠ 0 := by omega
    have hback : (((n + 1 : Nat) : Int) - 1).toNat = n := by omega
    rw [if_neg hne, lastIndexOf, hback]

theorem lineBetween_natCast (us : Units) (n : Nat) :
    lineBetween us n = lastLine (us.take n) ++ firstLine (us.drop n) := by
  have hbegin := start_add_lastLine us n
  rw [lineBetween, start_natCast, indexOf, Int.toNat_natCast, stop_eq_add_firstLine]
  generalize ((lastBefore us lineBreak n).map (· + 1)).getD 0 = start at hbegin ⊢
  have hlast : (us.take n).drop start = lastLine (us.take n) := by
    rw [List.suffix_iff_eq_drop.1 (lastLine_suffix (us.take n)), ← hbegin, Nat.add_sub_cancel]
  have hwhole : us.drop start = lastLine (us.take n) ++ us.drop n := by
    rw [← hlast, ← List.drop_append_of_le_length (by omega), List.take_append_drop]
  have hlength : (us.take n).length + (firstLine (us.drop n)).length - start =
      (lastLine (us.take n)).length + (firstLine (us.drop n)).length := by omega
  rw [substring_of_le (by omega), hwhole, hlength, List.take_length_add_append, ← firstLine_eq_take]

/-- **Both searches come to the ends of the line**, and where a position lies before the text and a break begins it, the
search backwards comes out behind the search forwards. -/
theorem lineAt_eq_between (us : Units) (pos : Int) : lineAt us pos = lineBetween us pos := by
  rcases lt_or_ge pos 0 with hneg | hpos
  · have hzero : pos.toNat = 0 := Int.toNat_of_nonpos hneg.le
    rw [lineBetween_of_neg hneg, lineAt, hzero]
    by_cases hbegins : us.head? = some lineBreak
    · rw [if_pos ⟨hneg, hbegins⟩, if_pos hbegins]
    · rw [if_neg fun h => hbegins h.2, if_neg hbegins]
      rfl
  · obtain ⟨n, rfl⟩ := Int.eq_ofNat_of_zero_le hpos
    rw [lineAt_natCast, lineBetween_natCast]

/-- the line that is found by searching is the one whose number is found by counting -/
theorem getElem?_lines_lineCol {us : Units} {pos : Int} (h : 0 ≤ pos) :
    (lines us)[(lineCol us pos).1 - 1]? = some (lineBetween us pos) := by
  obtain ⟨n, rfl⟩ := Int.eq_ofNat_of_zero_le h
  rw [← lineAt_eq_between, lineAt_natCast, lineCol_eq, Int.toNat_natCast, Nat.add_sub_cancel]
  exact getElem?_lines us n

/-! ## Spots -/

/-- what a block of a rendering shows of a position -/
structure Spot where
  line : Nat
  text : Units
  column : Nat
  deriving DecidableEq

/-- the line of a position and the column in it, found in the lines of the text -/
def spotAt (us : Units) (pos : Nat) : Spot :=
  let line := (us.take pos).count lineBreak + 1
  ⟨line, (lines us)[line - 1]?.getD [], pos - lineStart us line⟩

/-- the spot is where the position lies -/
structure IsSpot (us : Units) (pos : Nat) (spot : Spot) : Prop where
  line : spot.line = (us.take pos).count lineBreak + 1
  text : (lines us)[spot.line - 1]? = some spot.text
  unbroken : lineBreak ∉ spot.text
  column : lineStart us spot.line + spot.column = pos
  column_le : spot.column ≤ spot.text.length

/-- the line and the column tell the position -/
theorem IsSpot.pos_eq {us : Units} {pos pos' : Nat} {spot spot' : Spot} (h : IsSpot us pos spot)
    (h' : IsSpot us pos' spot') (hline : spot.line = spot'.line) (hcolumn : spot.column = spot'.column) :
    pos = pos' := by
  rw [← h.column, ← h'.column, hline, hcolumn]

theorem spotAt_eq {us : Units} {pos : Nat} (h : pos ≤ us.length) : spotAt us pos =
    ⟨(us.take pos).count lineBreak + 1, lastLine (us.take pos) ++ firstLine (us.drop pos),
      (lastLine (us.take pos)).length⟩ := by
  have hcolumn : pos - lineStart us ((us.take pos).count lineBreak + 1) = (lastLine (us.take pos)).length :=
    Nat.sub_eq_of_eq_add' (lineStart_add_indent h).symm
  rw [spotAt, hcolumn, Nat.add_sub_cancel, getElem?_lines, Option.getD_some]

theorem isSpot_spotAt {us : Units} {pos : Nat} (h : pos ≤ us.length) : IsSpot us pos (spotAt us pos) := by
  rw [spotAt_eq h]
  constructor
  · rfl
  · exact getElem?_lines us pos
  · rw [List.mem_append]
    exact not_or.2 ⟨lineBreak_notMem_lastLine _, lineBreak_notMem_firstLine _⟩
  · exact lineStart_add_indent h
  · rw [List.length_append]
    exact Nat.le_add_right _ _

/-- what the rendering finds at a position, also beyond the end, is what stands in the lines -/
theorem found_eq (us : Units) (n : Nat) :
    spotAt us (min n us.length) = ⟨(lineCol us n).1, lineAt us n, (lineCol us n).2 - 1⟩ := by
  have htake : us.take (min n us.length) = us.take n := List.take_eq_take_min.symm
  have hdrop : us.drop (min n us.length) = us.drop n := List.drop_eq_drop_min.symm
  rw [spotAt_eq (Nat.min_le_right _ _), lineAt_natCast, lineCol_eq, htake, hdrop, Int.toNat_natCast,
    Nat.add_sub_cancel]

/-! ## Blocks -/

/-- where a place lies in the source, if it does not lie before it -/
def posIn (source place : Text) : Nat := min (place.start - source.start) (View.length source)

/-- what a block of a rendering is for an entry whose place has this spot -/
def printed (index : Nat) (place : Text) (entry : VerboseEntry) (spot : Spot) : Units :=
  .ofString (Fault.natText index ++ ": ") ++ headline entry place spot.line ++ [lineBreak] ++ spot.text ++ [lineBreak] ++
    List.replicate spot.column 0x20 ++ .ofString "^"

/-- the line number is the only thing that a headline says about the position, and stands in front -/
theorem headline_eq (entry : VerboseEntry) (place : Text) : ∃ told, ∀ line,
    headline entry place line = .ofString ("at line " ++ Fault.natText line ++ ", ") ++ told := by
  cases entry with
  | kind kind => exact ⟨_, fun _ => rfl⟩
  | context label => exact ⟨_, fun _ => by rw [headline, List.append_assoc, List.append_assoc]⟩
  | char expected => exact ⟨_, fun _ => by rw [headline, List.append_assoc, List.append_assoc, List.append_assoc]⟩

theorem block_eq_printed {source place : Text} (h : source.start ≤ place.start) (index : Nat) (entry : VerboseEntry) :
    block source index place entry =
      printed index place entry (spotAt (View.content source) (posIn source place)) := by
  have hpos : (place.start : Int) - source.start = (place.start - source.start : Nat) := (Int.ofNat_sub h).symm
  rw [posIn, ← View.length_content, found_eq, block, hpos]
  rfl

end Render

open Render

/-- **Rendered positions are right**, whatever the source and the entries, as long as none lies before the source: the
blocks stand in order, with an empty line between them, and each is printed from the spot of its entry. Every position of
the source has a spot in its lines, and no two have the same line and column. -/
theorem rendering_points_at_places (source : Text) (error : VerboseError Text)
    (h : ∀ entry ∈ error.entries, source.start ≤ entry.1.start) :
    Render.verbose source error = Units.joinWith [lineBreak, lineBreak]
      (error.entries.mapIdx fun index (place, entry) =>
        printed index place entry (spotAt (View.content source) (posIn source place))) ∧
    (∀ entry place, ∃ told, ∀ line,
      headline entry place line = .ofString ("at line " ++ Fault.natText line ++ ", ") ++ told) ∧
    (∀ pos ≤ View.length source, IsSpot (View.content source) pos (spotAt (View.content source) pos)) ∧
    Set.InjOn (fun pos => ((spotAt (View.content source) pos).line, (spotAt (View.content source) pos).column))
      {pos | pos ≤ View.length source} := by
  have hspot : ∀ pos ≤ View.length source, IsSpot (View.content source) pos (spotAt (View.content source) pos) := by
    intro pos hpos
    exact isSpot_spotAt ((View.length_content source).symm ▸ hpos)
  refine ⟨?_, headline_eq, hspot, ?_⟩
  · rw [Render.verbose, List.mapIdx_eq_mapIdx_iff.2]
    intro index hindex
    have hbehind := h _ (List.getElem_mem hindex)
    generalize error.entries[index] = entry at hbehind ⊢
    exact block_eq_printed hbehind index entry.2
  · intro pos hpos pos' hpos' hsame
    obtain ⟨hline, hcolumn⟩ := Prod.mk.inj hsame
    exact (hspot pos hpos).pos_eq (hspot pos' hpos') hline hcolumn

/-- A source that begins behind the first line, with an entry on a break, one in an empty line and one beyond the end. -/
theorem rendering_points_at_breaks_and_end :
    let base := Units.ofString "x\nab\n\ncd!"
    let source : Text := ⟨⟨base, 2, 8, by decide, by decide⟩⟩
    let onBreak := View.drop source 2
    let inEmpty := View.drop source 3
    let beyond : Text := ⟨⟨base, 9, 9, by decide, by decide⟩⟩
    let error : VerboseError Text := ⟨[(onBreak, .kind .char), (inEmpty, .kind .tag), (beyond, .char (.ofString ";"))]⟩
    (∀ entry ∈ error.entries, source.start ≤ entry.1.start) ∧
    Render.verbose source error = Units.joinWith [lineBreak, lineBreak]
      [printed 0 onBreak (.kind .char) ⟨1, .ofString "ab", 2⟩, printed 1 inEmpty (.kind .tag) ⟨2, [], 0⟩,
        printed 2 beyond (.char (.ofString ";")) ⟨3, .ofString "cd", 2⟩] ∧
    printed 2 beyond (.char (.ofString ";")) ⟨3, .ofString "cd", 2⟩ =
      .ofString "2: at line 3, expected ';', got end of input\ncd\n  ^" := by
  intro base source onBreak inEmpty beyond error
  have hbehind : ∀ entry ∈ error.entries, source.start ≤ entry.1.start := by decide
  have hbreak : spotAt (View.content source) (posIn source onBreak) = ⟨1, .ofString "ab", 2⟩ := by decide
  have hempty : spotAt (View.content source) (posIn source inEmpty) = ⟨2, [], 0⟩ := by decide
  have hbeyond : spotAt (View.content source) (posIn source beyond) = ⟨3, .ofString "cd", 2⟩ := by decide
  refine ⟨hbehind, ?_, by decide +kernel⟩
  rw [← hbreak, ← hempty, ← hbeyond]
  exact (rendering_points_at_places source error hbehind).1

end SliceParser
