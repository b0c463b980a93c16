/-
READING quoted text: what a quoted text says, and where it ends.

- `readInside?`: reads up to the closing quote. A unit stands for itself, unless it is a quote, a backslash or a
  control; a backslash and a letter, or a backslash, a `u` and four hexadecimal digits of either case, stand for one
  unit. `readQuoted?` reads a quoted text from its opening quote on, and `unquote?` one that has nothing behind it.
- `readInside?_escape`: however an element of a text is written, it is read as the units of that element.
- `readQuoted?_quote`: **every text is read back from its quoted form, whatever stands behind it.** So where a quoted
  text ends can be told from its beginning, and the first quote that is not escaped is the closing one.
- `le_quote`: a quoted text has no control in it.
-/
import SliceParser.Json.Quoted
import SliceParser.Proofs.Unicode.Segment
import Mathlib.Tactic

namespace SliceParser.Json

/-! ## The reader -/

/-- the number that a hexadecimal digit stands for -/
def hexValue? (u : UInt16) : Option Nat :=
  if 0x30 ≤ u ∧ u ≤ 0x39 then some (u.toNat - 0x30)
  else if 0x41 ≤ u ∧ u ≤ 0x46 then some (u.toNat - 0x41 + 10)
  else if 0x61 ≤ u ∧ u ≤ 0x66 then some (u.toNat - 0x61 + 10)
  else none

/-- the unit that four hexadecimal digits spell -/
def hexUnit? (a b c d : UInt16) : Option UInt16 :=
  match hexValue? a, hexValue? b, hexValue? c, hexValue? d with
  | some a, some b, some c, some d => some (UInt16.ofNat (a * 0x1000 + b * 0x100 + c * 0x10 + d))
  | _, _, _, _ => none

/-- what letters stand for behind a backslash -/
def letters : List (UInt16 × UInt16) :=
  [(0x22, 0x22), (0x5C, 0x5C), (0x2F, 0x2F), (0x62, 0x08), (0x66, 0x0C), (0x6E, 0x0A), (0x72, 0x0D), (0x74, 0x09)]

/-- units that were read, in front of what is read behind them -/
def prepend (us : Units) (read : Units × Units) : Units × Units :=
  (us ++ read.1, read.2)

theorem prepend_nil : prepend [] = id := rfl

theorem prepend_comp (us ws : Units) : prepend us ∘ prepend ws = prepend (us ++ ws) := by
  funext read
  simp [prepend]

/-- what stands before the closing quote, and what is left behind it -/
def readInside? : Units → Option (Units × Units)
  | 0x5C :: 0x75 :: a :: b :: c :: d :: us =>
    match hexUnit? a b c d with
    | some unit => (readInside? us).map (prepend [unit])
    | none => none
  | 0x5C :: letter :: us =>
    match letters.lookup letter with
    | some unit => (readInside? us).map (prepend [unit])
    | none => none
  | u :: us =>
    if u = 0x22 then some ([], us)
    else if u < 0x20 ∨ u = 0x5C then none
    else (readInside? us).map (prepend [u])
  | [] => none

def readQuoted? : Units → Option (Units × Units)
  | [] => none
  | u :: us => if u = 0x22 then readInside? us else none

/-- what a quoted text says, if it is one and ends where the quote is closed -/
def unquote? (us : Units) : Option Units :=
  match readQuoted? us with
  | some (text, []) => some text
  | _ => none

/-! ## One unit -/

/-- a unit that may stand for itself -/
def IsPlain (u : UInt16) : Prop := 0x20 ≤ u ∧ u ≠ 0x22 ∧ u ≠ 0x5C

theorem readInside?_plain {u : UInt16} (h : IsPlain u) (us : Units) :
    readInside? (u :: us) = (readInside? us).map (prepend [u]) := by
  obtain ⟨hcontrol, hquote, hescape⟩ := h
  simp [readInside?, hquote, hescape, UInt16.not_lt.2 hcontrol]

theorem lookup_letters : ∀ pair ∈ letters, pair.1 ≠ 0x75 ∧ letters.lookup pair.1 = some pair.2 :=
  List.forall_iff_forall_mem.1 (by decide)

theorem readInside?_letter {letter unit : UInt16} (h : (letter, unit) ∈ letters) (us : Units) :
    readInside? (0x5C :: letter :: us) = (readInside? us).map (prepend [unit]) := by
  obtain ⟨hne, hlookup⟩ := lookup_letters _ h
  simp [readInside?, hne, hlookup]

theorem hexValue?_hexDigit : ∀ n < 16, hexValue? (hexDigit n) = some n := by
  decide

theorem hexUnit?_hexDigit (u : UInt16) :
    hexUnit? (hexDigit (u.toNat / 0x1000)) (hexDigit (u.toNat / 0x100 % 0x10)) (hexDigit (u.toNat / 0x10 % 0x10))
      (hexDigit (u.toNat % 0x10)) = some u := by
  have hlt : u.toNat < 0x10000 := u.toNat_lt
  have hsum : u.toNat / 0x1000 * 0x1000 + u.toNat / 0x100 % 0x10 * 0x100 + u.toNat / 0x10 % 0x10 * 0x10 +
      u.toNat % 0x10 = u.toNat := by omega
  unfold hexUnit?
  rw [hexValue?_hexDigit (u.toNat / 0x1000) (by omega), hexValue?_hexDigit (u.toNat / 0x100 % 0x10) (by omega),
    hexValue?_hexDigit (u.toNat / 0x10 % 0x10) (by omega), hexValue?_hexDigit (u.toNat % 0x10) (by omega)]
  simp only [hsum, UInt16.ofNat_toNat]

theorem readInside?_escapeUnit (u : UInt16) (us : Units) :
    readInside? (escapeUnit u ++ us) = (readInside? us).map (prepend [u]) := by
  simp [escapeUnit, readInside?, hexUnit?_hexDigit]

/-! ## One element -/

theorem isPlain_of_lt {u : UInt16} (h : 0x5C < u.toNat) : IsPlain u := by
  refine ⟨?_, ?_, ?_⟩
  · rw [UInt16.le_iff_toNat_le]
    exact le_trans (by decide) h.le
  · rintro rfl
    exact absurd h (by decide)
  · rintro rfl
    exact absurd h (by decide)

/-- the halves of a pair stand far behind what is escaped -/
theorem isPlain_of_mem_pair {high low : UInt16} {text : Units} (h : .pair high low ∈ segment text) :
    IsPlain high ∧ IsPlain low := by
  obtain ⟨hhigh, hlow⟩ := surrogates_of_mem_segment h
  simp only [isHighSurrogate, isLowSurrogate, Bool.and_eq_true, decide_eq_true_eq, UInt16.le_iff_toNat_le] at hhigh hlow
  exact ⟨isPlain_of_lt (lt_of_lt_of_le (by decide) hhigh.1), isPlain_of_lt (lt_of_lt_of_le (by decide) hlow.1)⟩

/-- how an element of a text is written: by a letter, by the digits of its units, or as it is -/
theorem escape_cases {e : Element} {text : Units} (h : e ∈ segment text) :
    (∃ letter unit, (letter, unit) ∈ letters ∧ e.units = [unit] ∧ escape e = [0x5C, letter]) ∨
    escape e = e.units.flatMap escapeUnit ∨
    escape e = e.units ∧ ∀ u ∈ e.units, IsPlain u := by
  unfold escape
  split
  · exact Or.inl ⟨0x22, 0x22, by decide, rfl, rfl⟩
  · exact Or.inl ⟨0x5C, 0x5C, by decide, rfl, rfl⟩
  · exact Or.inl ⟨0x62, 0x08, by decide, rfl, rfl⟩
  · exact Or.inl ⟨0x66, 0x0C, by decide, rfl, rfl⟩
  · exact Or.inl ⟨0x6E, 0x0A, by decide, rfl, rfl⟩
  · exact Or.inl ⟨0x72, 0x0D, by decide, rfl, rfl⟩
  · exact Or.inl ⟨0x74, 0x09, by decide, rfl, rfl⟩
  · rename_i hquote hescape _ _ _ _ _
    split_ifs with hdigits
    · exact Or.inr (Or.inl rfl)
    · refine Or.inr (Or.inr ⟨rfl, ?_⟩)
      cases e with
      | unit u =>
        rw [Bool.or_eq_true, not_or, decide_eq_true_eq] at hdigits
        have hcontrol : 0x20 ≤ u := UInt16.le_iff_toNat_le.2 (Nat.not_lt.1 hdigits.2)
        simp only [Element.units, List.mem_singleton, forall_eq]
        exact ⟨hcontrol, fun hu => hquote (congrArg Element.unit hu), fun hu => hescape (congrArg Element.unit hu)⟩
      | pair high low =>
        obtain ⟨hhigh, hlow⟩ := isPlain_of_mem_pair h
        simp [Element.units, hhigh, hlow]

/-- what is written piece by piece is read piece by piece -/
theorem readInside?_flatMap {α : Type} {written units : α → Units} {as : List α}
    (h : ∀ a ∈ as, ∀ us, readInside? (written a ++ us) = (readInside? us).map (prepend (units a))) (us : Units) :
    readInside? (as.flatMap written ++ us) = (readInside? us).map (prepend (as.flatMap units)) := by
  induction as with
  | nil => rw [List.flatMap_nil, List.flatMap_nil, prepend_nil, Option.map_id, id, List.nil_append]
  | cons a as ih =>
    rw [List.flatMap_cons, List.append_assoc, h a List.mem_cons_self, ih fun b hb => h b (List.mem_cons_of_mem _ hb),
      Option.map_map, prepend_comp, List.flatMap_cons]

theorem readInside?_escape {e : Element} {text : Units} (h : e ∈ segment text) (us : Units) :
    readInside? (escape e ++ us) = (readInside? us).map (prepend e.units) := by
  rcases escape_cases h with ⟨letter, unit, hletter, hunits, hescape⟩ | hescape | ⟨hescape, hplain⟩
  · rw [hescape, hunits]
    exact readInside?_letter hletter us
  · have hread : readInside? (e.units.flatMap escapeUnit ++ us) =
        (readInside? us).map (prepend (e.units.flatMap fun u => [u])) :=
      readInside?_flatMap (fun u _ => readInside?_escapeUnit u) us
    rw [List.flatMap_singleton'] at hread
    rw [hescape, hread]
  · have hread : readInside? ((e.units.flatMap fun u => [u]) ++ us) =
        (readInside? us).map (prepend (e.units.flatMap fun u => [u])) :=
      readInside?_flatMap (fun u hu => readInside?_plain (hplain u hu)) us
    rw [List.flatMap_singleton'] at hread
    rw [hescape, hread]

/-! ## The whole text -/

/-- **Every text is read back from its quoted form**, and what stands behind it is left. -/
theorem readQuoted?_quote (text us : Units) : readQuoted? (quote text ++ us) = some (text, us) := by
  have hinside : quote text ++ us = 0x22 :: ((segment text).flatMap escape ++ 0x22 :: us) := by simp [quote]
  have hclosed : readInside? (0x22 :: us) = some ([], us) := by simp [readInside?]
  rw [hinside, readQuoted?, if_pos rfl, readInside?_flatMap fun e he => readInside?_escape he, hclosed,
    flatMap_units_segment]
  simp [prepend]

theorem unquote?_quote (text : Units) : unquote? (quote text) = some text := by
  have hread := readQuoted?_quote text []
  rw [List.append_nil] at hread
  simp [unquote?, hread]

/-! ## Controls -/

theorem le_hexDigit : ∀ n < 16, 0x20 ≤ hexDigit n := by
  decide

theorem le_letter : ∀ pair ∈ letters, 0x20 ≤ pair.1 :=
  List.forall_iff_forall_mem.1 (by decide)

theorem le_escapeUnit (w : UInt16) : ∀ u ∈ escapeUnit w, 0x20 ≤ u := by
  have hlt : w.toNat < 0x10000 := w.toNat_lt
  have h3 := le_hexDigit (w.toNat / 0x1000) (by omega)
  have h2 := le_hexDigit (w.toNat / 0x100 % 0x10) (by omega)
  have h1 := le_hexDigit (w.toNat / 0x10 % 0x10) (by omega)
  have h0 := le_hexDigit (w.toNat % 0x10) (by omega)
  simp [escapeUnit, h3, h2, h1, h0]

theorem le_escape {e : Element} {text : Units} (h : e ∈ segment text) : ∀ u ∈ escape e, 0x20 ≤ u := by
  rcases escape_cases h with ⟨letter, unit, hletter, -, hescape⟩ | hescape | ⟨hescape, hplain⟩
  · have hlow := le_letter _ hletter
    simp [hescape, hlow]
  · intro u hu
    rw [hescape, List.mem_flatMap] at hu
    obtain ⟨w, -, hu⟩ := hu
    exact le_escapeUnit w u hu
  · intro u hu
    rw [hescape] at hu
    exact (hplain u hu).1

/-- a quoted text has no control in it -/
theorem le_quote (text : Units) : ∀ u ∈ quote text, 0x20 ≤ u := by
  intro u hu
  simp only [quote, List.mem_append, List.mem_cons, List.mem_flatMap, List.not_mem_nil, or_false] at hu
  rcases hu with (rfl | ⟨e, he, hu⟩) | rfl
  · decide
  · exact le_escape he u hu
  · decide

end SliceParser.Json
