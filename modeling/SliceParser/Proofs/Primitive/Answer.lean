/-
ANSWERS of the primitives: all eleven decide on an offset, and then cut the input there or fail.

- `matched?`: how many units of an input a primitive matches, if any match. It is never more than there are
  (`matched?_le`), and a primitive that goes by elements matches whole ones (`matched?_isBoundary`).
- `kind?`: the kind of error that a primitive fails with. `takeWhile` and `takeTill` have none, and always match.
- `Answers`: the outcomes that go with these two.
- `build_answers`: **a primitive that can be made has an outcome on every input, and it is the one that goes with
  what the primitive matches there.** What is said of primitives further on rests on this and not on their bodies.
-/
import SliceParser.Parser.Primitive
import SliceParser.Proofs.View.Search

namespace SliceParser

variable {V κ α ω E : Type} [Position ω] [View V κ ω] [Alphabet κ α]

/-! ## Counts -/

/-- a count that is a natural makes a parser, and every other is refused, whatever the strategy -/
theorem Parser.take_cases (count : Number) :
    (∃ n, count.toNat? = some n ∧
      ∀ {E : Type} (errors : ErrorStrategy V E), Parser.take count errors = .ok (Parser.takeCount n errors)) ∨
    (∃ fault, ∀ {E : Type} (errors : ErrorStrategy V E), Parser.take count errors = .error fault) := by
  cases hn : count.toNat? with
  | none =>
    refine Or.inr ⟨.invalidCount count, ?_⟩
    intro E errors
    rw [Parser.take, Number.toCount, hn]
    rfl
  | some n =>
    refine Or.inl ⟨n, rfl, ?_⟩
    intro E errors
    rw [Parser.take, Number.toCount, hn]
    rfl

/-- bounds that are naturals and in order make a parser, and all others are refused, whatever the strategy -/
theorem Parser.takeWhileMN_cases (least most : Number) (p : α → Bool) :
    (∃ m n, least.toNat? = some m ∧ most.toNat? = some n ∧ m ≤ n ∧ ∀ {E : Type} (errors : ErrorStrategy V E),
      Parser.takeWhileMN least most p errors = .ok (Parser.takeBetween m n p errors)) ∨
    (∃ fault, ∀ {E : Type} (errors : ErrorStrategy V E), Parser.takeWhileMN least most p errors = .error fault) := by
  cases hm : least.toNat? with
  | none =>
    refine Or.inr ⟨.invalidCount least, ?_⟩
    intro E errors
    rw [Parser.takeWhileMN, Number.toCount, hm]
    rfl
  | some m =>
    cases hn : most.toNat? with
    | none =>
      refine Or.inr ⟨.invalidCount most, ?_⟩
      intro E errors
      rw [Parser.takeWhileMN, Number.toCount, Number.toCount, hm, hn]
      rfl
    | some n =>
      by_cases hlt : n < m
      · refine Or.inr ⟨.minimumExceedsMaximum m n, ?_⟩
        intro E errors
        rw [Parser.takeWhileMN, Number.toCount, Number.toCount, hm, hn]
        exact if_pos hlt
      · refine Or.inl ⟨m, n, rfl, rfl, Nat.le_of_not_lt hlt, ?_⟩
        intro E errors
        rw [Parser.takeWhileMN, Number.toCount, Number.toCount, hm, hn]
        simp only [bind, Except.bind, if_neg hlt]
        rfl

namespace Primitive

/-! ## What a primitive matches -/

/-- the kind of error that a primitive fails with, if it can fail -/
def kind? : Primitive V α → Option ErrorKind
  | .tag _ => some .tag
  | .tagNoCase _ => some .tag
  | .isA _ => some .isA
  | .isNot _ => some .isNot
  | .takeWhile _ => none
  | .takeWhile1 _ => some .takeWhile1
  | .takeWhileMN _ _ _ => some .takeWhileMN
  | .takeTill _ => none
  | .takeTill1 _ => some .takeTill1
  | .take _ => some .eof
  | .takeUntil _ => some .takeUntil

/-- the end of a run that is not empty -/
def nonempty (stop : Nat) : Option Nat :=
  if stop = 0 then none else some stop

/-- the end of a run, if it does not lie before `least?`; beyond `most?` it is cut there -/
def clamped (stop : Nat) (least? most? : Option Nat) : Option Nat :=
  match least? with
  | none => none
  | some least =>
    if stop < least then none
    else match most? with
      | some most => some (if most < stop then most else stop)
      | none => some stop

theorem nonempty_eq_some {stop k : Nat} (h : nonempty stop = some k) : stop = k ∧ k ≠ 0 := by
  unfold nonempty at h
  split_ifs at h with h0
  obtain rfl := Option.some.inj h
  exact ⟨rfl, h0⟩

theorem clamped_eq_some {stop k : Nat} {least? most? : Option Nat} (h : clamped stop least? most? = some k) :
    k = stop ∨ most? = some k := by
  unfold clamped at h
  split at h
  · exact absurd h (by simp)
  · split_ifs at h
    split at h
    · obtain rfl := Option.some.inj h
      split_ifs
      · exact Or.inr rfl
      · exact Or.inl rfl
    · exact Or.inl (Option.some.inj h).symm

theorem takeBetween_eq (errors : ErrorStrategy V E) (least most : Nat) (p : α → Bool) (input : V) :
    Parser.takeBetween least most p errors input =
      match clamped (View.runEnd input fun e => !p e) (View.sliceIndex input least) (View.sliceIndex input most) with
      | some k => Parser.cut input k
      | none => .ok (.error (errors.fromKind input .takeWhileMN)) := by
  rw [View.runEnd]
  unfold Parser.takeBetween
  generalize (View.position input fun e => !p e).getD (View.length input) = stop
  unfold clamped
  cases View.sliceIndex input least with
  | none => rfl
  | some leastEnd =>
    by_cases hshort : stop < leastEnd
    · simp only [if_pos hshort]
    · simp only [if_neg hshort]
      cases View.sliceIndex input most <;> rfl

variable [DecidableEq κ] [DecidableEq α]

/-- how many units of an input a primitive matches, if it matches any or may match none -/
def matched? (input : V) : Primitive V α → Option Nat
  | .tag literal => if View.compare input literal = .ok then some (View.length literal) else none
  | .tagNoCase literal => if View.compareNoCase input literal = .ok then some (View.length literal) else none
  | .isA set => nonempty (View.runEnd input fun e => !(View.members set).contains e)
  | .isNot set => nonempty (View.runEnd input (View.members set).contains)
  | .takeWhile p => some (View.runEnd input fun e => !p e)
  | .takeWhile1 p => nonempty (View.runEnd input fun e => !p e)
  | .takeWhileMN least most p => do
    let m ← least.toNat?
    let n ← most.toNat?
    clamped (View.runEnd input fun e => !p e) (View.sliceIndex input m) (View.sliceIndex input n)
  | .takeTill p => some (View.runEnd input p)
  | .takeTill1 p => nonempty (View.runEnd input p)
  | .take count => do View.sliceIndex input (← count.toNat?)
  | .takeUntil needle => View.findSubstring input needle

/-- the primitives that go by elements; the others go by the units of a literal or a needle -/
def byElements : Primitive V α → Bool
  | .tag _ => false
  | .tagNoCase _ => false
  | .takeUntil _ => false
  | _ => true

/-- a primitive that goes by elements matches up to a boundary between two of them -/
theorem matched?_isBoundary {input : V} {primitive : Primitive V α} {k : Nat} (helements : primitive.byElements = true)
    (h : primitive.matched? input = some k) : View.IsBoundary input k := by
  have hnonempty : ∀ p : α → Bool, nonempty (View.runEnd input p) = some k → View.IsBoundary input k := by
    intro p hp
    obtain ⟨rfl, -⟩ := nonempty_eq_some hp
    exact View.runEnd_isBoundary input p
  cases primitive with
  | tag literal => exact absurd helements Bool.false_ne_true
  | tagNoCase literal => exact absurd helements Bool.false_ne_true
  | isA set => exact hnonempty _ h
  | isNot set => exact hnonempty _ h
  | takeWhile p =>
    obtain rfl := Option.some.inj h
    exact View.runEnd_isBoundary input _
  | takeWhile1 p => exact hnonempty _ h
  | takeWhileMN least most p =>
    obtain ⟨m, -, h⟩ := Option.bind_eq_some_iff.1 h
    obtain ⟨n, -, h⟩ := Option.bind_eq_some_iff.1 h
    rcases clamped_eq_some h with rfl | hmost
    · exact View.runEnd_isBoundary input _
    · exact View.sliceIndex_isBoundary hmost
  | takeTill p =>
    obtain rfl := Option.some.inj h
    exact View.runEnd_isBoundary input p
  | takeTill1 p => exact hnonempty _ h
  | take count =>
    obtain ⟨n, -, h⟩ := Option.bind_eq_some_iff.1 h
    exact View.sliceIndex_isBoundary h
  | takeUntil needle => exact absurd helements Bool.false_ne_true

theorem matched?_le {input : V} {primitive : Primitive V α} {k : Nat} (h : primitive.matched? input = some k) :
    k ≤ View.length input := by
  cases primitive with
  | tag literal =>
    simp only [matched?] at h
    split_ifs at h with hok
    obtain rfl := Option.some.inj h
    exact View.length_le_of_compare hok
  | tagNoCase literal =>
    simp only [matched?] at h
    split_ifs at h with hok
    obtain rfl := Option.some.inj h
    exact View.length_le_of_compareNoCase hok
  | takeUntil needle => exact View.findSubstring_le h
  | _ => exact (matched?_isBoundary rfl h).le_length

/-! ## Outcomes -/

/-- the outcomes that a primitive may have on an input -/
inductive Answers (errors : ErrorStrategy V E) (input : V) (primitive : Primitive V α) : Outcome V V E → Prop
  /-- the input is cut behind what matched -/
  | cut (k : Nat) : primitive.matched? input = some k →
      Answers errors input primitive (.success (View.drop input k) (View.take input k))
  /-- nothing matched, and the error lies at the input itself -/
  | error (kind : ErrorKind) : primitive.matched? input = none → primitive.kind? = some kind →
      Answers errors input primitive (.error (errors.fromKind input kind))

variable {errors : ErrorStrategy V E} {primitive : Primitive V α}

theorem answers_cut {input : V} {k : Nat} (h : primitive.matched? input = some k) :
    ∃ outcome, Parser.cut input k = .ok outcome ∧ Answers errors input primitive outcome :=
  ⟨_, Parser.cut_eq input k (matched?_le h), .cut k h⟩

/-- the primitives that split at an element and refuse an empty match -/
theorem answers_splitAtPosition1 {input : V} {p : α → Bool} {kind : ErrorKind}
    (hmatched : primitive.matched? input = nonempty (View.runEnd input p)) (hkind : primitive.kind? = some kind) :
    ∃ outcome, Parser.splitAtPosition1 input p kind errors = .ok outcome ∧
      Answers errors input primitive outcome := by
  change ∃ outcome, (if View.runEnd input p = 0 then _ else Parser.cut input (View.runEnd input p)) = _ ∧ _
  unfold nonempty at hmatched
  split_ifs at hmatched ⊢
  · exact ⟨_, rfl, .error kind hmatched hkind⟩
  · exact answers_cut hmatched

/-- **A primitive that can be made has the outcome that goes with what it matches.** -/
theorem build_answers {parser : Parser V V E} (h : primitive.build errors = .ok parser) (input : V) :
    ∃ outcome, parser input = .ok outcome ∧ Answers errors input primitive outcome := by
  cases primitive with
  | tag literal =>
    obtain rfl := Except.ok.inj h
    by_cases hok : View.compare input literal = .ok
    · simpa only [Parser.tag, if_pos hok] using answers_cut (by simp [matched?, hok])
    · exact ⟨_, by simp only [Parser.tag, if_neg hok], .error .tag (by simp [matched?, hok]) rfl⟩
  | tagNoCase literal =>
    obtain rfl := Except.ok.inj h
    by_cases hok : View.compareNoCase input literal = .ok
    · simpa only [Parser.tagNoCase, if_pos hok] using answers_cut (by simp [matched?, hok])
    · exact ⟨_, by simp only [Parser.tagNoCase, if_neg hok], .error .tag (by simp [matched?, hok]) rfl⟩
  | isA set =>
    obtain rfl := Except.ok.inj h
    exact answers_splitAtPosition1 rfl rfl
  | isNot set =>
    obtain rfl := Except.ok.inj h
    exact answers_splitAtPosition1 rfl rfl
  | takeWhile p =>
    obtain rfl := Except.ok.inj h
    exact answers_cut rfl
  | takeWhile1 p =>
    obtain rfl := Except.ok.inj h
    exact answers_splitAtPosition1 rfl rfl
  | takeWhileMN least most p =>
    rcases Parser.takeWhileMN_cases (V := V) least most p with ⟨m, n, hm, hn, -, hmake⟩ | ⟨fault, hrefuse⟩
    · obtain rfl := Except.ok.inj ((hmake errors).symm.trans h)
      have hmatched : (Primitive.takeWhileMN least most p : Primitive V α).matched? input =
          clamped (View.runEnd input fun e => !p e) (View.sliceIndex input m) (View.sliceIndex input n) := by
        simp only [matched?, hm, hn, Option.bind_eq_bind, Option.bind_some]
      rw [takeBetween_eq]
      cases hclamped : clamped (View.runEnd input fun e => !p e) (View.sliceIndex input m)
          (View.sliceIndex input n) with
      | some k => exact answers_cut (hmatched.trans hclamped)
      | none => exact ⟨_, rfl, .error .takeWhileMN (hmatched.trans hclamped) rfl⟩
    · exact nomatch (hrefuse errors).symm.trans h
  | takeTill p =>
    obtain rfl := Except.ok.inj h
    exact answers_cut rfl
  | takeTill1 p =>
    obtain rfl := Except.ok.inj h
    exact answers_splitAtPosition1 rfl rfl
  | take count =>
    rcases Parser.take_cases (V := V) count with ⟨n, hn, hmake⟩ | ⟨fault, hrefuse⟩
    · obtain rfl := Except.ok.inj ((hmake errors).symm.trans h)
      have hmatched : (Primitive.take count : Primitive V α).matched? input = View.sliceIndex input n := by
        simp only [matched?, hn, Option.bind_eq_bind, Option.bind_some]
      cases hslice : View.sliceIndex input n with
      | some offset => simpa only [Parser.takeCount, hslice] using answers_cut (hmatched.trans hslice)
      | none => exact ⟨_, by simp only [Parser.takeCount, hslice], .error .eof (hmatched.trans hslice) rfl⟩
    · exact nomatch (hrefuse errors).symm.trans h
  | takeUntil needle =>
    obtain rfl := Except.ok.inj h
    cases hfind : View.findSubstring input needle with
    | some offset => simpa only [Parser.takeUntil, hfind] using answers_cut (by simp [matched?, hfind])
    | none => exact ⟨_, by simp only [Parser.takeUntil, hfind], .error .takeUntil hfind rfl⟩

end Primitive

end SliceParser
