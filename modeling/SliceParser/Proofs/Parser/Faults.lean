/-
FAULTS in law checks: what the laws say of a parser that is stopped on an input instead of having an outcome there.

- `check_of_fault`: the check of totality reports the fault, and every other check is stopped by it.
- `broken_of_fault`: so a list of laws is not gone through to its end, if any law but totality is in it.
- `ReportsFaults`: what the law suite is for. There is a report, and totality is in it exactly when the parser is
  stopped.
- `reportsFaults_iff_outcome`: **the suite does that where the parser has an outcome, and nowhere else.** A fault is not
  in the report, it takes the place of the report.
-/
import SliceParser.Proofs.Parser.Exact
import SliceParser.Parser.Combinator

namespace SliceParser

namespace ParserLaw

variable {V κ ω E : Type} [Position ω] [View V κ ω] {eqError : E → E → Bool} {parser : Parser V V E} {input : V}
  {fault : Fault}

/-- only the check of totality is prepared for a fault -/
theorem check_of_fault (h : parser input = .error fault) (law : ParserLaw) :
    check eqError parser input law = if law = .totality then .ok false else .error fault := by
  cases law <;> simp only [check, h] <;> rfl

/-- the first law that runs the parser unprepared stops the report -/
theorem broken_of_fault (h : parser input = .error fault) {laws : List ParserLaw}
    (hlaw : ∃ law ∈ laws, law ≠ .totality) : broken eqError parser input laws = .error fault := by
  induction laws with
  | nil =>
    obtain ⟨law, hmem, -⟩ := hlaw
    exact nomatch hmem
  | cons law laws ih =>
    rw [broken, check_of_fault h]
    by_cases htotality : law = .totality
    · -- the report goes on behind totality, and there it is stopped
      obtain ⟨other, hmem, hother⟩ := hlaw
      have hlater : other ∈ laws := (List.mem_cons.1 hmem).resolve_left fun heq => hother (heq.trans htotality)
      rw [if_pos htotality, ih ⟨other, hlater, hother⟩]
      rfl
    · rw [if_neg htotality]
      rfl

/-- there is a report on an input, and it has totality in it exactly when the parser is stopped there -/
def ReportsFaults (eqError : E → E → Bool) (parser : Parser V V E) (input : V) : Prop :=
  ∃ broken, brokenLaws eqError parser input = .ok broken ∧
    (ParserLaw.totality ∈ broken ↔ ∃ fault, parser input = .error fault)

end ParserLaw

open ParserLaw

variable {V κ ω E : Type} [Position ω] [View V κ ω]

theorem brokenLaws_of_fault {eqError : E → E → Bool} {parser : Parser V V E} {input : V} {fault : Fault}
    (h : parser input = .error fault) : brokenLaws eqError parser input = .error fault :=
  broken_of_fault h ⟨.concatenation, by decide, by decide⟩

/-- **A fault takes the place of the report.** The suite reports as it should exactly where the parser has an outcome.
Elsewhere every check but that of totality is stopped by the fault of the parser, and so is the suite. -/
theorem reportsFaults_iff_outcome (eqError : E → E → Bool) (parser : Parser V V E) (input : V) :
    (ReportsFaults eqError parser input ↔ ∃ outcome, parser input = .ok outcome) ∧
    (∀ fault, brokenLaws eqError parser input = .error fault ↔ parser input = .error fault) ∧
    (∀ fault, parser input = .error fault → ∀ law,
      check eqError parser input law = if law = .totality then .ok false else .error fault) := by
  cases hrun : parser input with
  | ok outcome =>
    have hreport : brokenLaws eqError parser input =
        .ok (ParserLaw.all.filter fun law => !judge eqError input outcome law) := brokenLaws_eq_filter hrun
    refine ⟨?_, ?_, ?_⟩
    · have habsent : ParserLaw.totality ∉ ParserLaw.all.filter fun law => !judge eqError input outcome law := by
        rw [mem_broken_iff]
        exact Bool.noConfusion
      refine iff_of_true ⟨_, hreport, iff_of_false habsent ?_⟩ ⟨outcome, rfl⟩
      rintro ⟨fault, hfault⟩
      exact nomatch hrun.symm.trans hfault
    · intro fault
      rw [hreport]
      exact iff_of_false nofun nofun
    · intro fault hfault
      exact nomatch hfault
  | error refusal =>
    have hstopped : brokenLaws eqError parser input = .error refusal := brokenLaws_of_fault hrun
    refine ⟨?_, ?_, ?_⟩
    · refine iff_of_false ?_ nofun
      rintro ⟨broken, hreport, -⟩
      exact nomatch hreport.symm.trans hstopped
    · intro fault
      rw [hstopped]
      exact ⟨fun h => congrArg _ (Except.error.inj h), fun h => congrArg _ (Except.error.inj h)⟩
    · intro fault hfault law
      obtain rfl := Except.error.inj hfault
      exact check_of_fault hrun law

/-- a parser that always stops, on a text of one unit: totality fails, and the fault itself comes out of the suite -/
theorem fault_missing_from_report :
    let parser : Parser Text Text Unit := Parser.raise (.ofString "boom")
    let input : Text := .ofString "a"
    let eqError : Unit → Unit → Bool := fun _ _ => true
    check eqError parser input .totality = .ok false ∧
    brokenLaws eqError parser input = .error (.raised (.ofString "boom")) ∧
    ¬ ReportsFaults eqError parser input := by
  intro parser input eqError
  have hstopped : brokenLaws eqError parser input = .error (.raised (.ofString "boom")) := rfl
  refine ⟨rfl, hstopped, ?_⟩
  rintro ⟨broken, hreport, -⟩
  exact nomatch hreport.symm.trans hstopped

end SliceParser
