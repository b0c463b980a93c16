/-
LONGEST RUNS: what the six primitives match that take a run of elements of one kind.

- `TakesRun`: these six, each with the elements it looks for, and whether it refuses an empty run. Two look for the
  elements of a set or for all others, and two for the elements that do not satisfy their predicate.
- `AtStop`: a view that is empty or begins with an element that is not looked for. There, and only there, a run is empty
  (`runEnd_eq_zero_iff`).
- `members_of_run`: a cut at the end of the run leaves the run on one side, and on the other what begins at a stop.
- `primitives_take_longest_run`: **a match holds only what is looked for and goes on as far as that goes**, as the match
  and the rest show it themselves, whatever the window and wherever surrogates stand in it. A primitive that refuses an
  empty run fails exactly at a stop.
-/
import SliceParser.Proofs.Primitive.Answer
import SliceParser.Proofs.View.Cut
import SliceParser.Proofs.View.Rereading

namespace SliceParser

namespace Primitive

variable {V κ α ω E : Type} [Position ω] [View V κ ω] [Alphabet κ α]

/-! ## Runs -/

/-- the primitives that take a run: whether they refuse an empty one, and what they look for -/
inductive TakesRun : Primitive V α → Bool → (α → Prop) → Prop
  | isA (set : V) : TakesRun (.isA set) true fun e => ∃ n, (n, e) ∈ View.elements set
  | isNot (set : V) : TakesRun (.isNot set) true fun e => ¬ ∃ n, (n, e) ∈ View.elements set
  | takeWhile (p : α → Bool) : TakesRun (.takeWhile p) false fun e => p e = true
  | takeWhile1 (p : α → Bool) : TakesRun (.takeWhile1 p) true fun e => p e = true
  | takeTill (p : α → Bool) : TakesRun (.takeTill p) false fun e => ¬ p e = true
  | takeTill1 (p : α → Bool) : TakesRun (.takeTill1 p) true fun e => ¬ p e = true

/-- the view is empty, or its first element is not one that is looked for -/
def AtStop (q : α → Prop) (v : V) : Prop :=
  View.length v = 0 ∨ ∃ e others, View.elements v = (0, e) :: others ∧ ¬ q e

/-- the outcomes of a primitive that takes a longest run of what is looked for -/
structure LongestRun (refusesEmpty : Bool) (q : α → Prop) (input : V) (outcome : Outcome V V E) : Prop where
  /-- a success is a cut -/
  isCut : ∀ rest value, outcome = .success rest value → ∃ k, View.IsCut input k rest value
  /-- nothing but what is looked for -/
  pure : ∀ rest value, outcome = .success rest value → ∀ n e, (n, e) ∈ View.elements value → q e
  /-- and as much of it as there is -/
  maximal : ∀ rest value, outcome = .success rest value → AtStop q rest
  /-- some of it, where a run must not be empty -/
  nonempty : ∀ rest value, outcome = .success rest value → refusesEmpty = true → View.length value ≠ 0
  /-- there is no other reason to fail -/
  failed_iff : (∃ err, outcome = .failed err) ↔ refusesEmpty = true ∧ AtStop q input

/-! ## Stops -/

theorem atStop_iff {q : α → Prop} {v : V} : AtStop q v ↔ ∀ e ∈ (View.members v).head?, ¬ q e := by
  cases hmembers : (View.members v : List α) with
  | nil =>
    have hempty : View.length v = 0 := View.length_eq_zero_iff.2 hmembers
    exact iff_of_true (Or.inl hempty) (by simp)
  | cons e es =>
    have hlength : View.length v ≠ 0 := by
      rw [Ne, View.length_eq_zero_iff, hmembers]
      exact List.cons_ne_nil e es
    have helements : View.elements v = (0, e) :: View.placed (Alphabet.units : α → List κ)
        (0 + (Alphabet.units e : List κ).length) es := by
      rw [View.elements_eq, hmembers, View.placed]
    constructor
    · intro hstop f hf
      obtain rfl : e = f := Option.some.inj hf
      rcases hstop with hzero | ⟨f, others, hfirst, hq⟩
      · exact absurd hzero hlength
      · rw [helements] at hfirst
        obtain ⟨hpair, -⟩ := List.cons.inj hfirst
        rwa [(Prod.mk.inj hpair).2]
    · intro hq
      exact Or.inr ⟨e, _, helements, hq e rfl⟩

variable {q : α → Prop} {stop : α → Bool}

theorem runEnd_eq_zero_iff (hstop : ∀ e, stop e = true ↔ ¬ q e) (v : V) : View.runEnd v stop = 0 ↔ AtStop q v := by
  rw [View.runEnd_eq, extent_eq_zero_iff, atStop_iff]
  cases hmembers : (View.members v : List α) with
  | nil => simp
  | cons e es => simp [← hstop, List.takeWhile_cons]

/-- both sides of a cut at the end of the run, as they read themselves -/
theorem members_of_run [Rereading κ] (v : V) (stop : α → Bool) :
    View.members (View.take v (View.runEnd v stop)) = (View.members v).takeWhile (fun e => !stop e) ∧
      View.members (View.drop v (View.runEnd v stop)) = (View.members v).dropWhile fun e => !stop e := by
  have hsplit : View.members v =
      (View.members v).takeWhile (fun e => !stop e) ++ (View.members v).dropWhile fun e => !stop e :=
    List.takeWhile_append_dropWhile.symm
  rw [View.runEnd_eq]
  exact ⟨View.members_take_extent hsplit, View.members_drop_extent hsplit⟩

theorem mem_run [Rereading κ] (hstop : ∀ e, stop e = true ↔ ¬ q e) {v : V} {n : Nat} {e : α}
    (h : (n, e) ∈ View.elements (View.take v (View.runEnd v stop))) : q e := by
  have hmem : e ∈ (View.members v).takeWhile fun e => !stop e := by
    rw [← (members_of_run v stop).1]
    exact View.mem_members_iff.2 ⟨n, h⟩
  have hgoes : stop e = false := by simpa using List.mem_takeWhile_imp hmem
  by_contra hq
  rw [(hstop e).2 hq] at hgoes
  exact nomatch hgoes

theorem atStop_behind_run [Rereading κ] (hstop : ∀ e, stop e = true ↔ ¬ q e) (v : V) :
    AtStop q (View.drop v (View.runEnd v stop)) := by
  rw [atStop_iff, (members_of_run v stop).2]
  intro e he
  have hfirst := List.head?_dropWhile_not (fun e => !stop e) (View.members v)
  rw [he] at hfirst
  exact (hstop e).1 (by simpa using hfirst)

/-! ## Two outcomes -/

variable {refusesEmpty : Bool}

theorem longestRun_of_cut [Rereading κ] (hstop : ∀ e, stop e = true ↔ ¬ q e) {input : V}
    (hne : refusesEmpty = true → View.runEnd input stop ≠ 0) :
    LongestRun (E := E) refusesEmpty q input
      (.success (View.drop input (View.runEnd input stop)) (View.take input (View.runEnd input stop))) where
  isCut := by
    intro rest value heq
    cases heq
    exact ⟨_, View.isCut input (View.runEnd_isBoundary input stop).le_length⟩
  pure := by
    intro rest value heq n e he
    cases heq
    exact mem_run hstop he
  maximal := by
    intro rest value heq
    cases heq
    exact atStop_behind_run hstop input
  nonempty := by
    intro rest value heq hrefuses
    cases heq
    rw [View.length_take, Nat.min_eq_left (View.runEnd_isBoundary input stop).le_length]
    exact hne hrefuses
  failed_iff := by
    refine iff_of_false (fun ⟨err, herr⟩ => nomatch herr) ?_
    intro hboth
    exact hne hboth.1 ((runEnd_eq_zero_iff hstop input).2 hboth.2)

theorem longestRun_of_failed {input : V} {err : Err E} (hrefuses : refusesEmpty = true) (hat : AtStop q input) :
    LongestRun refusesEmpty q input (.failed err) where
  isCut := nofun
  pure := nofun
  maximal := nofun
  nonempty := nofun
  failed_iff := iff_of_true ⟨err, rfl⟩ ⟨hrefuses, hat⟩

/-! ## The six primitives -/

variable [DecidableEq κ] [DecidableEq α] {primitive : Primitive V α}

/-- all six match up to the first element that is not looked for -/
theorem matched?_of_takesRun (h : TakesRun primitive refusesEmpty q) :
    ∃ stop : α → Bool, (∀ e, stop e = true ↔ ¬ q e) ∧ ∀ input, primitive.matched? input =
      if refusesEmpty then Primitive.nonempty (View.runEnd input stop) else some (View.runEnd input stop) := by
  have hset : ∀ (set : V) (e : α), (View.members set).contains e = true ↔ ∃ n, (n, e) ∈ View.elements set := by
    intro set e
    rw [List.contains_iff_mem, View.mem_members_iff]
  cases h with
  | isA set => exact ⟨fun e => !(View.members set).contains e, fun e => by simp [← hset], fun _ => rfl⟩
  | isNot set => exact ⟨(View.members set).contains, fun e => by rw [hset, not_not], fun _ => rfl⟩
  | takeWhile p => exact ⟨fun e => !p e, fun e => by simp, fun _ => rfl⟩
  | takeWhile1 p => exact ⟨fun e => !p e, fun e => by simp, fun _ => rfl⟩
  | takeTill p => exact ⟨p, fun e => not_not.symm, fun _ => rfl⟩
  | takeTill1 p => exact ⟨p, fun e => not_not.symm, fun _ => rfl⟩

theorem build_of_takesRun (h : TakesRun primitive refusesEmpty q) (errors : ErrorStrategy V E) :
    ∃ parser, primitive.build errors = .ok parser := by
  cases h <;> exact ⟨_, rfl⟩

theorem longestRun_of_answers [Rereading κ] {errors : ErrorStrategy V E} {input : V} {outcome : Outcome V V E}
    (h : TakesRun primitive refusesEmpty q) (hanswers : Answers errors input primitive outcome) :
    LongestRun refusesEmpty q input outcome := by
  obtain ⟨stop, hstop, hmatched⟩ := matched?_of_takesRun h
  have hmatched := hmatched input
  cases hanswers with
  | cut k hk =>
    rw [hk] at hmatched
    split_ifs at hmatched with hrefuses
    · obtain ⟨rfl, hne⟩ := nonempty_eq_some hmatched.symm
      exact longestRun_of_cut hstop fun _ => hne
    · obtain rfl := Option.some.inj hmatched
      exact longestRun_of_cut hstop fun hrefuses' => absurd hrefuses' hrefuses
  | error kind hnone _ =>
    rw [hnone] at hmatched
    split_ifs at hmatched with hrefuses
    · refine longestRun_of_failed hrefuses ((runEnd_eq_zero_iff hstop input).1 ?_)
      by_contra hne
      rw [Primitive.nonempty, if_neg hne] at hmatched
      exact nomatch hmatched

theorem build_longestRun [Rereading κ] (h : TakesRun primitive refusesEmpty q) (errors : ErrorStrategy V E) :
    ∃ parser, primitive.build errors = .ok parser ∧
      ∀ input, ∃ outcome, parser input = .ok outcome ∧ LongestRun refusesEmpty q input outcome := by
  obtain ⟨parser, hbuild⟩ := build_of_takesRun h errors
  refine ⟨parser, hbuild, fun input => ?_⟩
  obtain ⟨outcome, hrun, hanswers⟩ := build_answers hbuild input
  exact ⟨outcome, hrun, longestRun_of_answers h hanswers⟩

end Primitive

open Primitive

/-- **Runs are pure and go as far as they can**, on every text and on all octets, and every one of the six primitives can
be made and has an outcome. -/
theorem primitives_take_longest_run {E : Type} :
    (∀ (errors : ErrorStrategy Text E) (primitive : Primitive Text Element) (refusesEmpty : Bool) (q : Element → Prop),
      TakesRun primitive refusesEmpty q → ∃ parser, primitive.build errors = .ok parser ∧
        ∀ input : Text, ∃ outcome, parser input = .ok outcome ∧ LongestRun refusesEmpty q input outcome) ∧
    (∀ (errors : ErrorStrategy Bytes E) (primitive : Primitive Bytes UInt8) (refusesEmpty : Bool) (q : UInt8 → Prop),
      TakesRun primitive refusesEmpty q → ∃ parser, primitive.build errors = .ok parser ∧
        ∀ input : Bytes, ∃ outcome, parser input = .ok outcome ∧ LongestRun refusesEmpty q input outcome) := by
  constructor
  · intro errors primitive refusesEmpty q h
    exact build_longestRun h errors
  · intro errors primitive refusesEmpty q h
    exact build_longestRun h errors

/-- the half of a pair that the window cuts is not in a set that has the whole pair; octets that begin at a stop -/
theorem run_stops_at_whole_pair :
    let input : Text := ⟨⟨[0xD83D, 0xDE00, 0x61, 0xD83D, 0xDE00], 1, 5, by decide, by decide⟩⟩
    let set : Text := .ofUnits [0xD83D, 0xDE00]
    let q : Element → Prop := fun e => ¬ ∃ n, (n, e) ∈ View.elements set
    let octets : Bytes := .ofOctets [3, 1] 0 (.ofInt 7)
    let p : UInt8 → Bool := fun u => u = 3
    TakesRun (.isNot set) true q ∧
    LongestRun (E := SimpleError Text) true q input (.success (View.drop input 2) (View.take input 2)) ∧
    View.elements (View.take input 2) = [(0, .unit 0xDE00), (1, .unit 0x61)] ∧
    View.elements (View.drop input 2) = [(0, .pair 0xD83D 0xDE00)] ∧
    TakesRun (V := Bytes) (.takeTill1 p) true (fun u => ¬ p u = true) ∧
    LongestRun (E := SimpleError Bytes) true (fun u => ¬ p u = true) octets
      (.error (ErrorStrategy.simple.fromKind octets .takeTill1)) := by
  intro input set q octets p
  obtain ⟨parser, hbuild, hall⟩ :=
    (primitives_take_longest_run (E := SimpleError Text)).1 .simple (.isNot set) true q (.isNot set)
  obtain rfl : Parser.isNot set .simple = parser := Except.ok.inj hbuild
  obtain ⟨outcome, hrun, hlongest⟩ := hall input
  obtain rfl : Outcome.success (View.drop input 2) (View.take input 2) = outcome := Except.ok.inj hrun
  obtain ⟨parser', hbuild', hall'⟩ :=
    (primitives_take_longest_run (E := SimpleError Bytes)).2 .simple (.takeTill1 p) true _ (.takeTill1 p)
  obtain rfl : Parser.takeTill1 p .simple = parser' := Except.ok.inj hbuild'
  obtain ⟨outcome', hrun', hlongest'⟩ := hall' octets
  obtain rfl : Outcome.error (ErrorStrategy.simple.fromKind octets .takeTill1) = outcome' := Except.ok.inj hrun'
  exact ⟨.isNot set, hlongest, rfl, rfl, .takeTill1 p, hlongest'⟩

end SliceParser
