/-
DECIDED OUTCOMES: what a primitive answers on an input that goes on, where what it has read settles the answer.

- `Decided`: a match that what follows the input cannot change. Literals, counts and needles settle it by themselves, a
  run by the element that ends it, and a bounded run also by its upper bound.
- `matched?_of_continues`: a decided match is the match on the longer input. `boundedEnd_of_continues` is the case of
  bounds that lie beyond the end of the input and are inside the longer one.
- `unmatched_of_continues`: a run that must not be empty, and ends at the first element, does so whatever follows.
- `KeptByMore`: the value is the same, the rest is continued, and a failure has the same kind.
- `decided_outcomes_are_kept`: **so do all eleven primitives answer**, on octets whatever follows and on texts where
  the end of the input does not part a pair.
-/
import SliceParser.Proofs.Primitive.LongestRun
import SliceParser.Proofs.Primitive.BoundedRun
import SliceParser.Proofs.View.Continuation

namespace SliceParser

namespace Primitive

variable {V κ α ω E : Type} [Position ω] [View V κ ω] [Alphabet κ α]

/-- nothing that follows the input changes a match that left `rest` and took `value` -/
def Decided (rest value : V) : Primitive V α → Prop
  | .tag _ => True
  | .tagNoCase _ => True
  | .take _ => True
  | .takeUntil _ => True
  | .takeWhileMN _ most _ => View.length rest ≠ 0 ∨ most.toNat? = some (View.elements value).length
  | _ => View.length rest ≠ 0

/-- the outcomes of a parser on an input that it decides on, and on one that goes on with `more` -/
structure KeptByMore (errors : ErrorStrategy V E) (primitive : Primitive V α) (parser : Parser V V E)
    (input : V) (more : List κ) (longer : V) : Prop where
  /-- a decided match takes the same, and leaves the same and what follows -/
  success : ∀ rest value, parser input = .ok (.success rest value) → Decided rest value primitive →
    ∃ rest' value', parser longer = .ok (.success rest' value') ∧
      View.Continues value [] value' ∧ View.Continues rest more rest'
  /-- a run that must not be empty, and is not there, does not come up -/
  failure : ∀ err, parser input = .ok (.failed err) → (∃ q, TakesRun primitive true q) → View.length input ≠ 0 →
    ∃ kind, primitive.kind? = some kind ∧ err = .recoverable (errors.fromKind input kind) ∧
      parser longer = .ok (.error (errors.fromKind longer kind))

/-! ## Bounded runs -/

variable {input longer : V} {more : List κ} {p : α → Bool} {n k : Nat}

theorem leading_le_of_continues (h : View.Continues input more longer) (hreads : View.ReadsOn input more) :
    leading p input ≤ leading p longer := by
  rw [leading_eq, leading_eq, View.members_of_continues h hreads, List.takeWhile_append]
  split_ifs with hall
  · rw [List.length_append, hall]
    exact Nat.le_add_right _ _
  · exact Nat.le_refl _

/-- where not all elements lead, those that lead are counted out -/
theorem leading_of_continues (h : View.Continues input more longer) (hreads : View.ReadsOn input more)
    (hstops : leading p input < (View.members input : List α).length) : leading p longer = leading p input := by
  rw [leading_eq] at hstops
  rw [leading_eq, leading_eq, View.members_of_continues h hreads, List.takeWhile_append, if_neg hstops.ne]

/-- a bound that was not reached is not reached now, and one that was stops the run at the same place -/
theorem boundedEnd_of_continues (h : View.Continues input more longer) (hreads : View.ReadsOn input more)
    (hsettled : leading p input < (View.members input : List α).length ∨ n ≤ leading p input) :
    boundedEnd n p longer = boundedEnd n p input := by
  have hcount : min (leading p longer) n = min (leading p input) n := by
    rcases hsettled with hstops | hfull
    · rw [leading_of_continues h hreads hstops]
    · rw [Nat.min_eq_right hfull, Nat.min_eq_right (hfull.trans (leading_le_of_continues h hreads))]
  have hinside : min (leading p input) n ≤ (View.members input : List α).length :=
    (Nat.min_le_left _ _).trans (leading_le p input)
  rw [boundedEnd, boundedEnd, hcount, View.members_of_continues h hreads, List.take_append_of_le_length hinside]

/-- what is left of a decided match shows which bound it met -/
theorem settled_of_decided [Rereading κ] {most : Number} (hmost : most.toNat? = some n)
    (hdecided : View.length (View.drop input (boundedEnd n p input)) ≠ 0 ∨
      most.toNat? = some (View.elements (View.take input (boundedEnd n p input)) : List (Nat × α)).length) :
    leading p input < (View.members input : List α).length ∨ n ≤ leading p input := by
  by_contra hopen
  obtain ⟨hall, hroom⟩ := not_or.1 hopen
  have hleading : leading p input = (View.members input : List α).length := by
    have := leading_le p input
    omega
  have hmin : min (leading p input) n = (View.members input : List α).length := by omega
  rcases hdecided with hrest | hfull
  · rw [boundedEnd, hmin, List.take_length, View.extent_members, View.length_drop, Nat.sub_self] at hrest
    exact hrest rfl
  · rw [elements_take_boundedEnd, hmin, hmost, List.length_take] at hfull
    have := Option.some.inj hfull
    omega

/-! ## The primitives -/

variable [DecidableEq κ] [DecidableEq α] {primitive : Primitive V α} {refusesEmpty : Bool} {q : α → Prop}

theorem matched?_run_of_continues (hrun : TakesRun primitive refusesEmpty q) (h : View.Continues input more longer)
    (hreads : View.ReadsOn input more) (hk : primitive.matched? input = some k)
    (hrest : View.length (View.drop input k) ≠ 0) : primitive.matched? longer = some k := by
  obtain ⟨stop, -, hmatched⟩ := matched?_of_takesRun hrun
  have hend : View.runEnd input stop = k := by
    rw [hmatched] at hk
    split_ifs at hk
    · exact (nonempty_eq_some hk).1
    · exact Option.some.inj hk
  have hlt : View.runEnd input stop < View.length input := by
    rw [View.length_drop] at hrest
    omega
  rw [hmatched, View.runEnd_of_lt h hreads hlt, ← hmatched]
  exact hk

theorem unmatched_of_continues (hrun : TakesRun primitive true q) (h : View.Continues input more longer)
    (hreads : View.ReadsOn input more) (hnone : primitive.matched? input = none) (hne : View.length input ≠ 0) :
    primitive.matched? longer = none := by
  obtain ⟨stop, -, hmatched⟩ := matched?_of_takesRun hrun
  have hend : View.runEnd input stop = 0 := by
    by_contra hpos
    rw [hmatched, if_pos rfl, nonempty, if_neg hpos] at hnone
    exact absurd hnone (Option.some_ne_none _)
  rw [hmatched, View.runEnd_of_lt h hreads (by omega), ← hmatched]
  exact hnone

/-- **What a primitive has matched and decided it matches again when more follows.** -/
theorem matched?_of_continues [Rereading κ] (h : View.Continues input more longer) (hreads : View.ReadsOn input more)
    (hk : primitive.matched? input = some k) (hdecided : Decided (View.drop input k) (View.take input k) primitive) :
    primitive.matched? longer = some k := by
  cases primitive with
  | tag literal =>
    simp only [matched?] at hk ⊢
    split_ifs at hk with hok
    rw [if_pos (h.compare hok), hk]
  | tagNoCase literal =>
    simp only [matched?] at hk ⊢
    split_ifs at hk with hok
    rw [if_pos (h.compareNoCase hok), hk]
  | isA set => exact matched?_run_of_continues (.isA set) h hreads hk hdecided
  | isNot set => exact matched?_run_of_continues (.isNot set) h hreads hk hdecided
  | takeWhile p => exact matched?_run_of_continues (.takeWhile p) h hreads hk hdecided
  | takeWhile1 p => exact matched?_run_of_continues (.takeWhile1 p) h hreads hk hdecided
  | takeWhileMN least most p =>
    obtain ⟨m, hm, hk⟩ := Option.bind_eq_some_iff.1 hk
    obtain ⟨n, hn, hk⟩ := Option.bind_eq_some_iff.1 hk
    rw [clamped_eq] at hk
    split_ifs at hk with hshort
    obtain rfl : boundedEnd n p input = k := Option.some.inj hk
    have hlong : ¬ leading p longer < m := by
      have := leading_le_of_continues (p := p) h hreads
      omega
    simp only [matched?, hm, hn, Option.bind_eq_bind, Option.bind_some]
    rw [clamped_eq, if_neg hlong, boundedEnd_of_continues h hreads (settled_of_decided hn hdecided)]
  | takeTill p => exact matched?_run_of_continues (.takeTill p) h hreads hk hdecided
  | takeTill1 p => exact matched?_run_of_continues (.takeTill1 p) h hreads hk hdecided
  | take count =>
    obtain ⟨n, hn, hk⟩ := Option.bind_eq_some_iff.1 hk
    exact Option.bind_eq_some_iff.2 ⟨n, hn, View.sliceIndex_of_some h hreads hk⟩
  | takeUntil needle => exact h.findSubstring hk

theorem keptByMore [Rereading κ] {errors : ErrorStrategy V E} {parser : Parser V V E}
    (hbuild : primitive.build errors = .ok parser) (h : View.Continues input more longer)
    (hreads : View.ReadsOn input more) : KeptByMore errors primitive parser input more longer := by
  obtain ⟨outcome, hrun, hanswers⟩ := build_answers hbuild input
  obtain ⟨outcome', hrun', hanswers'⟩ := build_answers hbuild longer
  constructor
  · intro rest value hsuccess hdecided
    obtain rfl : outcome = .success rest value := Except.ok.inj (hrun.symm.trans hsuccess)
    cases hanswers with
    | cut k hk =>
      have hmatched := matched?_of_continues h hreads hk hdecided
      cases hanswers' with
      | cut k' hk' =>
        obtain rfl : k = k' := Option.some.inj (hmatched.symm.trans hk')
        exact ⟨_, _, hrun', h.take (matched?_le hk), h.drop (matched?_le hk)⟩
      | error kind hnone _ => exact nomatch hmatched.symm.trans hnone
  · intro err hfailed hrefuses hne
    obtain ⟨q, htakes⟩ := hrefuses
    obtain rfl : outcome = .failed err := Except.ok.inj (hrun.symm.trans hfailed)
    cases hanswers with
    | error kind hnone hkind =>
      have hunmatched := unmatched_of_continues htakes h hreads hnone hne
      cases hanswers' with
      | cut k' hk' => exact nomatch hunmatched.symm.trans hk'
      | error kind' _ hkind' =>
        obtain rfl : kind = kind' := Option.some.inj (hkind.symm.trans hkind')
        exact ⟨kind, hkind, rfl, hrun'⟩

end Primitive

open Primitive

/-- **More input does not change what is decided.** There is a longer input for whatever may follow, and on each a
decided match is the same match, and a run that is not there is missed as before. -/
theorem decided_outcomes_are_kept {E : Type} :
    (∀ (errors : ErrorStrategy Text E) (primitive : Primitive Text Element) (parser : Parser Text Text E),
      primitive.build errors = .ok parser →
        ∀ (input : Text) (more : Units), ¬ Units.Torn (View.content input) more →
          (∃ longer, View.Continues input more longer) ∧
          ∀ longer, View.Continues input more longer → KeptByMore errors primitive parser input more longer) ∧
    (∀ (errors : ErrorStrategy Bytes E) (primitive : Primitive Bytes UInt8) (parser : Parser Bytes Bytes E),
      primitive.build errors = .ok parser →
        ∀ (input : Bytes) (more : List UInt8),
          (∃ longer, View.Continues input more longer) ∧
          ∀ longer, View.Continues input more longer → KeptByMore errors primitive parser input more longer) := by
  refine ⟨?_, ?_⟩
  · intro errors primitive parser hbuild input more hwhole
    refine ⟨input.exists_continues more, ?_⟩
    intro longer h
    exact keptByMore hbuild h (Text.readsOn hwhole)
  · intro errors primitive parser hbuild input more
    refine ⟨input.exists_continues more, ?_⟩
    intro longer h
    exact keptByMore hbuild h (input.readsOn more)

/-- a run before a stop, octets up to the upper bound of a run, and a run that is not there -/
theorem outcomes_kept_when_input_goes_on :
    let input : Text := .ofUnits [0x61, 0x62, 0x31, 0xD83D]
    let more : Units := [0x32, 0xDE00]
    let longer : Text := .ofUnits [0x61, 0x62, 0x31, 0xD83D, 0x32, 0xDE00]
    let isLetter : Element → Bool := fun e => ElementClass.isAlpha e.code
    let octets : Bytes := .ofOctets [5, 5] 0 (.ofInt 7)
    let moreOctets : Bytes := .ofOctets [5, 5, 5] 0 (.ofInt 7)
    let isFive : UInt8 → Bool := fun u => u = 5
    ¬ Units.Torn (View.content input) more ∧
    KeptByMore (E := SimpleError Text) .simple (.takeWhile1 isLetter) (Parser.takeWhile1 isLetter .simple) input more
      longer ∧
    Parser.takeWhile1 isLetter (.simple : ErrorStrategy Text (SimpleError Text)) input =
      .ok (.success (View.drop input 2) (View.take input 2)) ∧
    Decided (View.drop input 2) (View.take input 2) (.takeWhile1 isLetter) ∧
    KeptByMore (E := SimpleError Text) .simple (.takeTill1 isLetter) (Parser.takeTill1 isLetter .simple) input more
      longer ∧
    KeptByMore (E := SimpleError Bytes) .simple (.takeWhileMN (.ofNat 1) (.ofNat 2) isFive)
      (Parser.takeBetween 1 2 isFive .simple) octets [5] moreOctets ∧
    Decided (View.drop octets 2) (View.take octets 2) (.takeWhileMN (.ofNat 1) (.ofNat 2) isFive) := by
  intro input more longer isLetter octets moreOctets isFive
  have hwhole : ¬ Units.Torn (View.content input) more := fun htorn => absurd htorn.2 (by decide)
  have hrest : View.length (View.drop input 2) ≠ 0 := by decide
  have hletters := (decided_outcomes_are_kept (E := SimpleError Text)).1 .simple (.takeWhile1 isLetter)
    (Parser.takeWhile1 isLetter .simple) rfl input more hwhole
  have hothers := (decided_outcomes_are_kept (E := SimpleError Text)).1 .simple (.takeTill1 isLetter)
    (Parser.takeTill1 isLetter .simple) rfl input more hwhole
  have hfives := (decided_outcomes_are_kept (E := SimpleError Bytes)).2 .simple
    (.takeWhileMN (.ofNat 1) (.ofNat 2) isFive) (Parser.takeBetween 1 2 isFive .simple)
    (takeWhileMN_ofNat .simple (by decide) isFive) octets [5]
  exact ⟨hwhole, hletters.2 longer ⟨rfl, rfl⟩, rfl, hrest, hothers.2 longer ⟨rfl, rfl⟩,
    hfives.2 moreOctets ⟨rfl, rfl⟩, Or.inr rfl⟩

end SliceParser
