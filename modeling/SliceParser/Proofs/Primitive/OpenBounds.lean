/-
OPEN BOUNDS: where the counted scan does what the scans without a count do, though it goes about it in another way.

- `takeBetween_eq_ite`: the counted scan in terms of counts. It fails if too few elements lead, and otherwise cuts behind
  those that lead, up to its upper bound.
- `boundedEnd_of_le`: an upper bound that the input does not reach is no bound. The cut is where the run ends.
- `leading_eq_zero_iff`: no element leads exactly when the run ends where it begins, at which the scans that refuse an
  empty run fail.
- `AgreeButKind`: two runs that succeed with the same, or fail with errors that differ in nothing but the kind.
- `counted_scan_agrees`: **with no lower bound it is the plain scan, with the lower bound 1 the scan that refuses an
  empty run, and with equal bounds and nothing to test it is a count.** It holds of every kind of view.
-/
import SliceParser.Proofs.Primitive.BoundedRun
import SliceParser.Proofs.Primitive.Counts

namespace SliceParser

namespace Primitive

variable {V κ α ω E : Type} [Position ω] [View V κ ω] [Alphabet κ α]

/-! ## The counted scan by counts -/

theorem takeBetween_eq_ite (errors : ErrorStrategy V E) (m n : Nat) (p : α → Bool) (input : V) :
    Parser.takeBetween m n p errors input =
      if leading p input < m then .ok (.error (errors.fromKind input .takeWhileMN))
      else Parser.cut input (boundedEnd n p input) := by
  rw [takeBetween_eq, clamped_eq]
  by_cases hshort : leading p input < m
  · rw [if_pos hshort, if_pos hshort]
  · rw [if_neg hshort, if_neg hshort]

variable {p : α → Bool} {v : V} {n : Nat}

/-- an upper bound beyond the elements is not in the way of the run -/
theorem boundedEnd_of_le (h : (View.members v : List α).length ≤ n) :
    boundedEnd n p v = View.runEnd v fun e => !p e := by
  rw [runEnd_eq_extent_leading, boundedEnd, Nat.min_eq_left ((leading_le p v).trans h)]

theorem leading_eq_zero_iff : leading p v = 0 ↔ (View.runEnd v fun e => !p e) = 0 := by
  rw [View.runEnd_eq, extent_eq_zero_iff, leading_eq, List.length_eq_zero_iff]
  simp only [Bool.not_not]

/-- all elements lead where every element will do -/
theorem leading_true (v : V) : leading (fun _ : α => true) v = (View.members v : List α).length := by
  rw [leading_eq, List.takeWhile_eq_self_iff.2 fun _ _ => rfl]

/-! ## Agreement -/

/-- two runs on an input that succeed with the same value and rest, or fail there, each with an error of its own kind -/
inductive AgreeButKind (errors : ErrorStrategy V E) (input : V) (kind kind' : ErrorKind) :
    Except Fault (Outcome V V E) → Except Fault (Outcome V V E) → Prop
  | success (rest value : V) :
      AgreeButKind errors input kind kind' (.ok (.success rest value)) (.ok (.success rest value))
  | error :
      AgreeButKind errors input kind kind' (.ok (.error (errors.fromKind input kind)))
        (.ok (.error (errors.fromKind input kind')))

variable {errors : ErrorStrategy V E} {input : V}

/-- both fail in the same case, and otherwise cut at the same place -/
theorem agreeButKind_of_ite {c c' : Prop} [Decidable c] [Decidable c'] {kind kind' : ErrorKind} {k k' : Nat}
    (hc : c ↔ c') (hk : ¬ c → k = k') (hle : k ≤ View.length input) :
    AgreeButKind errors input kind kind'
      (if c then .ok (.error (errors.fromKind input kind)) else Parser.cut input k)
      (if c' then .ok (.error (errors.fromKind input kind')) else Parser.cut input k') := by
  by_cases h : c
  · rw [if_pos h, if_pos (hc.1 h)]
    exact .error
  · rw [if_neg h, if_neg (mt hc.2 h), ← hk h, Parser.cut_eq input k hle]
    exact .success _ _

/-! ## The three scans -/

/-- with no lower bound the counted scan does not fail either -/
theorem takeBetween_eq_takeWhile (h : (View.members input : List α).length ≤ n) :
    Parser.takeBetween 0 n p errors input = Parser.takeWhile p input := by
  rw [takeBetween_eq_ite, if_neg (Nat.not_lt_zero _), boundedEnd_of_le h]
  rfl

theorem takeBetween_agrees_takeWhile1 (h : (View.members input : List α).length ≤ n) :
    AgreeButKind errors input .takeWhileMN .takeWhile1 (Parser.takeBetween 1 n p errors input)
      (Parser.takeWhile1 p errors input) := by
  rw [takeBetween_eq_ite, boundedEnd_of_le h]
  apply agreeButKind_of_ite
  · rw [Nat.lt_one_iff]
    exact leading_eq_zero_iff
  · exact fun _ => rfl
  · exact (View.runEnd_isBoundary input _).le_length

theorem takeBetween_agrees_takeCount (errors : ErrorStrategy V E) (k : Nat) (input : V) :
    AgreeButKind errors input .takeWhileMN .eof (Parser.takeBetween k k (fun _ => true) errors input)
      (Parser.takeCount k errors input) := by
  rw [takeBetween_eq_ite, takeCount_eq_ite, leading_true]
  apply agreeButKind_of_ite
  · rfl
  · intro hcount
    rw [boundedEnd, leading_true, Nat.min_eq_right (Nat.le_of_not_lt hcount), countEnd]
  · exact boundedEnd_le k _ input

end Primitive

open Primitive

/-- **The counted scan agrees with those that do not count**, wherever its bounds leave them a choice: an upper bound is
out of reach when it is at least the number of elements of the input. -/
theorem counted_scan_agrees {V κ α ω E : Type} [Position ω] [View V κ ω] [Alphabet κ α] [DecidableEq κ] [DecidableEq α]
    (errors : ErrorStrategy V E) :
    (∀ (p : α → Bool) (n : Nat), ∃ counted plain,
      (Primitive.takeWhileMN (.ofNat 0) (.ofNat n) p : Primitive V α).build errors = .ok counted ∧
      (Primitive.takeWhile p : Primitive V α).build errors = .ok plain ∧
      ∀ input : V, (View.elements input : List (Nat × α)).length ≤ n → counted input = plain input) ∧
    (∀ (p : α → Bool) (n : Nat), 1 ≤ n → ∃ counted nonempty,
      (Primitive.takeWhileMN (.ofNat 1) (.ofNat n) p : Primitive V α).build errors = .ok counted ∧
      (Primitive.takeWhile1 p : Primitive V α).build errors = .ok nonempty ∧
      ∀ input : V, (View.elements input : List (Nat × α)).length ≤ n →
        AgreeButKind errors input .takeWhileMN .takeWhile1 (counted input) (nonempty input)) ∧
    (∀ k : Nat, ∃ counted count,
      (Primitive.takeWhileMN (.ofNat k) (.ofNat k) (fun _ => true) : Primitive V α).build errors = .ok counted ∧
      (Primitive.take (.ofNat k) : Primitive V α).build errors = .ok count ∧
      ∀ input : V, AgreeButKind errors input .takeWhileMN .eof (counted input) (count input)) := by
  refine ⟨?_, ?_, ?_⟩
  · intro p n
    refine ⟨_, _, takeWhileMN_ofNat errors (Nat.zero_le n) p, rfl, ?_⟩
    intro input hn
    rw [View.length_elements] at hn
    exact takeBetween_eq_takeWhile hn
  · intro p n hpos
    refine ⟨_, _, takeWhileMN_ofNat errors hpos p, rfl, ?_⟩
    intro input hn
    rw [View.length_elements] at hn
    exact takeBetween_agrees_takeWhile1 hn
  · intro k
    exact ⟨_, _, takeWhileMN_ofNat errors le_rfl _, take_ofNat errors k, takeBetween_agrees_takeCount errors k⟩

/-- an upper bound that the pairs of a text just meet, octets of which none leads, and a count that is not there -/
theorem counted_scan_agrees_at_edges :
    let input : Text := .ofUnits [0xD83D, 0xDE00, 0xD83D, 0xDE01]
    let isPair : Element → Bool := fun e => ElementClass.isAstral e.code
    let simple : ErrorStrategy Text (SimpleError Text) := .simple
    let octets : Bytes := .ofOctets [1, 2] 0 (.ofInt 7)
    let isTwo : UInt8 → Bool := fun u => u = 2
    let simpleOctets : ErrorStrategy Bytes (SimpleError Bytes) := .simple
    (View.elements input : List (Nat × Element)).length ≤ 2 ∧
    Parser.takeBetween 0 2 isPair simple input = Parser.takeWhile isPair input ∧
    Parser.takeBetween 0 2 isPair simple input = .ok (.success (View.drop input 4) input) ∧
    (View.elements octets : List (Nat × UInt8)).length ≤ 2 ∧
    AgreeButKind simpleOctets octets .takeWhileMN .takeWhile1 (Parser.takeBetween 1 2 isTwo simpleOctets octets)
      (Parser.takeWhile1 isTwo simpleOctets octets) ∧
    Parser.takeBetween 1 2 isTwo simpleOctets octets = .ok (.error ⟨octets, .takeWhileMN⟩) ∧
    AgreeButKind simpleOctets octets .takeWhileMN .eof (Parser.takeBetween 3 3 (fun _ => true) simpleOctets octets)
      (Parser.takeCount 3 simpleOctets octets) ∧
    Parser.takeCount 3 simpleOctets octets = .ok (.error ⟨octets, .eof⟩) := by
  intro input isPair simple octets isTwo simpleOctets
  have hpairs : (View.elements input : List (Nat × Element)).length ≤ 2 := by decide
  have hoctets : (View.elements octets : List (Nat × UInt8)).length ≤ 2 := by decide
  obtain ⟨counted, plain, hcounted, hplain, hsame⟩ := (counted_scan_agrees simple).1 isPair 2
  obtain rfl := Except.ok.inj ((takeWhileMN_ofNat simple (by decide) isPair).symm.trans hcounted)
  obtain rfl := Except.ok.inj hplain
  obtain ⟨one, nonempty, hone, hnonempty, hrefused⟩ := (counted_scan_agrees simpleOctets).2.1 isTwo 2 (by decide)
  obtain rfl := Except.ok.inj ((takeWhileMN_ofNat simpleOctets (by decide) isTwo).symm.trans hone)
  obtain rfl := Except.ok.inj hnonempty
  obtain ⟨three, count, hthree, hcount, hshort⟩ := (counted_scan_agrees simpleOctets).2.2 3
  obtain rfl := Except.ok.inj ((takeWhileMN_ofNat simpleOctets (by decide) fun _ => true).symm.trans hthree)
  obtain rfl := Except.ok.inj ((take_ofNat simpleOctets 3).symm.trans hcount)
  exact ⟨hpairs, hsame input hpairs, rfl, hoctets, hrefused octets hoctets, rfl, hshort octets, rfl⟩

end SliceParser
