/-
COMPARISONS of an input with a literal: three verdicts, what each of them says, and what more input makes of it.

- `compareUnits_eq_ok`, `compareUnits_eq_incomplete`, `compareUnits_eq_error`: the literal is a prefix of the input, or
  the input is a strict prefix of the literal, or neither is a prefix of the other.
- `compareFolded_octets`: octets are compared with case aside by comparing them in ASCII lower case.
- `ComparesExactly`: a comparison whose verdicts say just that of contents that are read in some way. A match or a
  mismatch is final, whatever follows, and where more input is asked for there is some that makes a match.
- `EqualWhenMutual`: two views are equal when each of them begins with the other, and that is when they show the same.
- `comparisons_are_exact`: **so do texts compare, and octets in either case**, wherever their windows lie.
-/
import SliceParser.Proofs.View.Search
import SliceParser.View.Text
import SliceParser.View.Bytes

namespace SliceParser

namespace View

/-! ## Verdicts on units -/

section

variable {κ : Type} [DecidableEq κ] {us ws : List κ}

theorem compareUnits_eq_incomplete : compareUnits us ws = .incomplete ↔ us <+: ws ∧ us ≠ ws := by
  induction us generalizing ws with
  | nil => cases ws <;> simp [compareUnits]
  | cons u us ih =>
    cases ws with
    | nil => simp [compareUnits]
    | cons w ws =>
      simp only [compareUnits, List.cons_prefix_cons]
      split_ifs with h
      · simp [ih, h]
      · simp [h]

theorem compareUnits_eq_error : compareUnits us ws = .error ↔ ¬ ws <+: us ∧ ¬ us <+: ws := by
  have hok : compareUnits us ws = .ok ↔ ws <+: us := compareUnits_eq_ok
  have hincomplete : compareUnits us ws = .incomplete ↔ us <+: ws ∧ us ≠ ws := compareUnits_eq_incomplete
  cases hverdict : compareUnits us ws with
  | ok => simp [hok.1 hverdict]
  | incomplete => simp [(hincomplete.1 hverdict).1]
  | error =>
    have hliteral : ¬ ws <+: us := by simp [← hok, hverdict]
    refine iff_of_true rfl ⟨hliteral, ?_⟩
    intro hinput
    by_cases heq : us = ws
    · exact hliteral (heq ▸ List.prefix_rfl)
    · exact absurd (hverdict.symm.trans (hincomplete.2 ⟨hinput, heq⟩)) (by decide)

/-- a verdict other than the call for more input is final -/
theorem compareUnits_append (h : compareUnits us ws ≠ .incomplete) (more : List κ) :
    compareUnits (us ++ more) ws = compareUnits us ws := by
  cases hverdict : compareUnits us ws with
  | incomplete => exact absurd hverdict h
  | ok => exact compareUnits_eq_ok.2 ((compareUnits_eq_ok.1 hverdict).trans (List.prefix_append us more))
  | error =>
    obtain ⟨hliteral, hinput⟩ := compareUnits_eq_error.1 hverdict
    refine compareUnits_eq_error.2 ⟨?_, ?_⟩
    · intro hpre
      -- both begin the longer input, and so one of them begins the other
      rcases List.prefix_or_prefix_of_prefix hpre (List.prefix_append us more) with h | h
      · exact hliteral h
      · exact hinput h
    · intro hpre
      exact hinput ((List.prefix_append us more).trans hpre)

end

/-- octet by octet, the smaller letter of each -/
theorem compareFolded_octets (us ws : List UInt8) :
    compareFolded us ws = compareUnits (us.map asciiLower) (ws.map asciiLower) := by
  induction ws generalizing us with
  | nil => simp [compareFolded, compareUnits]
  | cons w ws ih =>
    cases us with
    | nil => rfl
    | cons u us => simp [compareFolded, compareUnits, ih, Alphabet.units, Alphabet.fold]

/-! ## Verdicts on views -/

variable {V κ ω : Type} [Position ω] [View V κ ω]

/-- the verdicts of a comparison, where it reads the units of both sides through `read` -/
structure ComparesExactly (verdict : V → V → Comparison) (read : κ → κ) (input literal : V) : Prop where
  ok_iff : verdict input literal = .ok ↔ (content literal).map read <+: (content input).map read
  incomplete_iff : verdict input literal = .incomplete ↔
    (content input).map read <+: (content literal).map read ∧ (content input).map read ≠ (content literal).map read
  error_iff : verdict input literal = .error ↔
    ¬ (content literal).map read <+: (content input).map read ∧
      ¬ (content input).map read <+: (content literal).map read
  /-- a match and a mismatch stay what they are, whatever follows the input -/
  final : verdict input literal ≠ .incomplete →
    ∀ more longer, content longer = content input ++ more → verdict longer literal = verdict input literal
  /-- more input is asked for only where some of it makes a match -/
  completed : verdict input literal = .incomplete →
    ∃ more longer, content longer = content input ++ more ∧ verdict longer literal = .ok

/-- when two views are equal -/
structure EqualWhenMutual [DecidableEq κ] (v w : V) : Prop where
  mutual_iff : equals v w = true ↔ compare v w = .ok ∧ compare w v = .ok
  content_iff : equals v w = true ↔ content v = content w

variable [DecidableEq κ]

theorem equals_iff {v w : V} : equals v w = true ↔ content v = content w := by
  rw [equals, Bool.and_eq_true, decide_eq_true_eq, decide_eq_true_eq, compare, compareUnits_eq_ok]
  constructor
  · intro ⟨hlength, hpre⟩
    exact (hpre.eq_of_length (by simpa using hlength.symm)).symm
  · intro heq
    exact ⟨by rw [← length_content, heq, length_content], heq ▸ List.prefix_rfl⟩

theorem equalWhenMutual (v w : V) : EqualWhenMutual v w := by
  refine ⟨?_, equals_iff⟩
  rw [equals_iff, compare, compare, compareUnits_eq_ok, compareUnits_eq_ok]
  constructor
  · intro heq
    exact ⟨heq ▸ List.prefix_rfl, heq ▸ List.prefix_rfl⟩
  · intro ⟨hv, hw⟩
    exact hw.eq_of_length_le hv.length_le

/-- a comparison unit by unit is exact, if every content is that of some view -/
theorem comparesExactly_of_units {verdict : V → V → Comparison} {read : κ → κ}
    (hviews : ∀ us : List κ, ∃ v : V, content v = us)
    (hunits : ∀ v w : V, verdict v w = compareUnits ((content v).map read) ((content w).map read))
    (input literal : V) : ComparesExactly verdict read input literal where
  ok_iff := by rw [hunits, compareUnits_eq_ok]
  incomplete_iff := by rw [hunits, compareUnits_eq_incomplete]
  error_iff := by rw [hunits, compareUnits_eq_error]
  final := by
    intro hfinal more longer hlonger
    rw [hunits] at hfinal
    rw [hunits, hunits, hlonger, List.map_append, compareUnits_append hfinal]
  completed := by
    intro hincomplete
    rw [hunits] at hincomplete
    obtain ⟨hpre, -⟩ := compareUnits_eq_incomplete.1 hincomplete
    -- what the literal has beyond the input
    let more := (content literal).drop (content input).length
    obtain ⟨longer, hlonger⟩ := hviews (content input ++ more)
    refine ⟨more, longer, hlonger, ?_⟩
    have hsame : (content longer).map read = (content literal).map read := by
      rw [hlonger, List.map_append, List.map_drop, ← List.length_map read]
      exact List.prefix_iff_eq_append.1 hpre
    rw [hunits, hsame, compareUnits_eq_ok]

end View

open View

/-- **Comparisons are exact, and stable under more input.** That holds of texts unit by unit, and of octets as they are
and in ASCII lower case. -/
theorem comparisons_are_exact :
    (∀ input literal : Text,
      ComparesExactly View.compare id input literal ∧ EqualWhenMutual input literal) ∧
    (∀ input literal : Bytes,
      ComparesExactly View.compare id input literal ∧ EqualWhenMutual input literal ∧
      ComparesExactly View.compareNoCase asciiLower input literal) := by
  have htexts : ∀ us : List UInt16, ∃ v : Text, content v = us := fun us => ⟨.ofUnits us, Span.content_whole us⟩
  have hoctets : ∀ us : List UInt8, ∃ v : Bytes, content v = us :=
    fun us => ⟨.ofOctets us 0 (.ofNat 0), Span.content_whole us⟩
  refine ⟨?_, ?_⟩
  · intro input literal
    refine ⟨comparesExactly_of_units htexts ?_ input literal, equalWhenMutual input literal⟩
    intro v w
    rw [List.map_id, List.map_id, View.compare]
  · intro input literal
    refine ⟨comparesExactly_of_units hoctets ?_ input literal, equalWhenMutual input literal,
      comparesExactly_of_units hoctets ?_ input literal⟩
    · intro v w
      rw [List.map_id, List.map_id, View.compare]
    · intro v w
      exact compareFolded_octets (content v) (content w)

/-- a window that ends where the literal goes on, and octets in another case -/
example :
    View.compare (⟨⟨[0x61, 0x62, 0x63], 0, 2, by decide, by decide⟩⟩ : Text) (.ofUnits [0x61, 0x62, 0x63]) =
      .incomplete ∧
    View.compareNoCase (.ofOctets [0x4B, 0x65] 0 (.ofNat 0) : Bytes) (.ofOctets [0x6B, 0x45, 0x79] 0 (.ofNat 0)) =
      .incomplete := by
  decide

end SliceParser
