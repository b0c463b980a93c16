/-
ANOTHER STRATEGY changes the errors of a parser, and nothing else.

- `Layer.Alike`: the same layer around parsers with other errors. What a traced layer writes, and whether it writes, may
  differ.
- `layered_related`: related strategies make related parsers, of any primitive and under any layers around it. One layer
  keeps what is inside related (`wrap_related`), and so do all of them (`wrapAll_related`).
- `layered_refused`: whether a primitive can be made does not depend on the strategy. `exists_outcome`: if no layer
  skips, there is an outcome on every input.
- `strategy_changes_errors_only`: **the outcome with one strategy is the outcome with the other, with its errors carried
  over.** The simple error is the first entry of the trail, and the unit strategy forgets it.

Strategies, and the texts of errors and values in traced lines, are total functions: none of them throws.
-/
import SliceParser.Proofs.ErrorStrategy.Related
import SliceParser.Proofs.Primitive.Answer
import SliceParser.View.Text

namespace SliceParser

/-! ## Parsers with related errors -/

variable {V κ α ω E F : Type} [Position ω] [View V κ ω]

/-- in whatever sessions the two are called, they end in a related way -/
def ParsersRelated (R : E → F → Prop) (parser : ParserT Traced V V E) (parser' : ParserT Traced V V F) : Prop :=
  ∀ input session session', EndsRelated R ((parser input).answer session) ((parser' input).answer session')

namespace Layer

/-- the same layer around parsers with other errors; a traced layer may show them in its own way, or not at all -/
inductive Alike : Layer E → Layer F → Prop
  | context (label : Units) : Alike (.context label) (.context label)
  | trace (label : Units) (options : TraceOptions E) (options' : TraceOptions F) :
      Alike (.trace label options) (.trace label options')
  | skip (offset : Number) : Alike (.skip offset) (.skip offset)

variable {R : E → F → Prop} {errors : ErrorStrategy V E} {errors' : ErrorStrategy V F}

theorem wrap_related (herrors : errors.Related R errors') {layer : Layer E} {layer' : Layer F}
    (hlayer : Alike layer layer') {parser : ParserT Traced V V E} {parser' : ParserT Traced V V F}
    (h : ParsersRelated R parser parser') :
    ParsersRelated R (layer.wrap errors parser) (layer'.wrap errors' parser') := by
  intro input session session'
  cases hlayer with
  | context label =>
    rw [wrap, wrap, Traced.answer_context, Traced.answer_context]
    exact endsRelated_committed (herrors.addContext input label) (h input session session')
  | trace label options options' =>
    rw [wrap, wrap, Traced.answer_trace, Traced.answer_trace]
    exact h input session session'
  | skip offset =>
    rw [wrap, wrap, Traced.answer_skip, Traced.answer_skip]
    cases View.takeSplit input offset with
    | error fault => exact .fault fault
    | ok sides => exact h sides.1 session session'

theorem wrapAll_related (herrors : errors.Related R errors') {layers : List (Layer E)} {layers' : List (Layer F)}
    (hlayers : List.Forall₂ Alike layers layers') {parser : ParserT Traced V V E} {parser' : ParserT Traced V V F}
    (h : ParsersRelated R parser parser') :
    ParsersRelated R (wrapAll errors parser layers) (wrapAll errors' parser' layers') := by
  induction hlayers with
  | nil => exact h
  | cons hlayer _ ih => exact wrap_related herrors hlayer ih

/-- the parser inside is called with the input of the layer -/
def keepsInput : Layer E → Bool
  | .skip _ => false
  | _ => true

theorem exists_outcome_wrapAll {layers : List (Layer E)} (hkeeps : ∀ layer ∈ layers, layer.keepsInput = true)
    {parser : ParserT Traced V V E} {input : V} {session : Session}
    (h : ∃ outcome, (parser input).answer session = .ok outcome) :
    ∃ outcome, (wrapAll errors parser layers input).answer session = .ok outcome := by
  induction layers with
  | nil => exact h
  | cons layer layers ih =>
    obtain ⟨outcome, hinner⟩ := ih fun inner hmem => hkeeps inner (List.mem_cons_of_mem _ hmem)
    cases layer with
    | context label =>
      refine ⟨outcome.committed (errors.addContext input label), ?_⟩
      rw [wrapAll, wrap, Traced.answer_context, hinner]
      rfl
    | trace label options => exact ⟨outcome, (Traced.answer_trace _ _ _ _ _).trans hinner⟩
    | skip offset => exact absurd (hkeeps (.skip offset) List.mem_cons_self) Bool.false_ne_true

end Layer

namespace Primitive

variable [Alphabet κ α] [DecidableEq κ] [DecidableEq α]

/-- a primitive with layers around it, all of them with one strategy -/
def layered (errors : ErrorStrategy V E) (primitive : Primitive V α) (layers : List (Layer E)) :
    Except Fault (ParserT Traced V V E) :=
  (primitive.build errors).map fun parser => Layer.wrapAll errors (Parser.lift parser) layers

variable {R : E → F → Prop} {errors : ErrorStrategy V E} {errors' : ErrorStrategy V F} {primitive : Primitive V α}

theorem layered_eq_ok {layers : List (Layer E)} {parser : ParserT Traced V V E}
    (h : primitive.layered errors layers = .ok parser) :
    ∃ plain, primitive.build errors = .ok plain ∧ parser = Layer.wrapAll errors (Parser.lift plain) layers := by
  unfold layered at h
  cases hbuild : primitive.build errors with
  | error fault =>
    rw [hbuild] at h
    exact nomatch h
  | ok plain =>
    rw [hbuild] at h
    exact ⟨plain, rfl, (Except.ok.inj h).symm⟩

/-- whether a primitive can be made does not depend on the strategy -/
theorem build_refused (errors : ErrorStrategy V E) (errors' : ErrorStrategy V F) {fault : Fault}
    (h : primitive.build errors = .error fault) : primitive.build errors' = .error fault := by
  cases primitive with
  | takeWhileMN least most p =>
    rcases Parser.takeWhileMN_cases (V := V) least most p with ⟨m, n, -, -, -, hmake⟩ | ⟨refusal, hrefuse⟩
    · exact nomatch (hmake errors).symm.trans h
    · obtain rfl := Except.error.inj ((hrefuse errors).symm.trans h)
      exact hrefuse errors'
  | take count =>
    rcases Parser.take_cases (V := V) count with ⟨n, -, hmake⟩ | ⟨refusal, hrefuse⟩
    · exact nomatch (hmake errors).symm.trans h
    · obtain rfl := Except.error.inj ((hrefuse errors).symm.trans h)
      exact hrefuse errors'
  | _ => exact nomatch h

theorem layered_refused (errors : ErrorStrategy V E) (errors' : ErrorStrategy V F) {layers : List (Layer E)}
    {layers' : List (Layer F)} {fault : Fault} (h : primitive.layered errors layers = .error fault) :
    primitive.layered errors' layers' = .error fault := by
  unfold layered at h ⊢
  cases hbuild : primitive.build errors with
  | error refusal =>
    rw [hbuild] at h
    rw [build_refused errors errors' hbuild]
    exact congrArg Except.error (Except.error.inj h)
  | ok plain =>
    rw [hbuild] at h
    exact nomatch h

theorem related_of_answers (herrors : errors.Related R errors') {input : V} {outcome : Outcome V V E}
    {outcome' : Outcome V V F} (h : Answers errors input primitive outcome)
    (h' : Answers errors' input primitive outcome') : Outcome.Related R outcome outcome' := by
  cases h with
  | cut k hk =>
    cases h' with
    | cut k' hk' =>
      obtain rfl : k = k' := Option.some.inj (hk.symm.trans hk')
      exact .success _ _
    | error kind hnone _ => exact absurd (hk.symm.trans hnone) (by simp)
  | error kind hnone hkind =>
    cases h' with
    | cut k' hk' => exact absurd (hk'.symm.trans hnone) (by simp)
    | error kind' _ hkind' =>
      obtain rfl : kind = kind' := Option.some.inj (hkind.symm.trans hkind')
      exact .failed _ _ (.recoverable _ _ (herrors.fromKind input kind))

theorem layered_related (herrors : errors.Related R errors') {layers : List (Layer E)} {layers' : List (Layer F)}
    (hlayers : List.Forall₂ Layer.Alike layers layers') {parser : ParserT Traced V V E}
    {parser' : ParserT Traced V V F} (h : primitive.layered errors layers = .ok parser)
    (h' : primitive.layered errors' layers' = .ok parser') : ParsersRelated R parser parser' := by
  obtain ⟨plain, hbuild, rfl⟩ := layered_eq_ok h
  obtain ⟨plain', hbuild', rfl⟩ := layered_eq_ok h'
  apply Layer.wrapAll_related herrors hlayers
  intro input session session'
  obtain ⟨outcome, hrun, hanswers⟩ := build_answers hbuild input
  obtain ⟨outcome', hrun', hanswers'⟩ := build_answers hbuild' input
  rw [Traced.answer_lift, Traced.answer_lift, hrun, hrun']
  exact .outcome _ _ (related_of_answers herrors hanswers hanswers')

/-- if no layer skips, there is an outcome -/
theorem exists_outcome {layers : List (Layer E)} (hkeeps : ∀ layer ∈ layers, layer.keepsInput = true)
    {parser : ParserT Traced V V E} (h : primitive.layered errors layers = .ok parser) (input : V)
    (session : Session) : ∃ outcome, (parser input).answer session = .ok outcome := by
  obtain ⟨plain, hbuild, rfl⟩ := layered_eq_ok h
  obtain ⟨outcome, hrun, -⟩ := build_answers hbuild input
  apply Layer.exists_outcome_wrapAll hkeeps
  exact ⟨outcome, (Traced.answer_lift plain input session).trans hrun⟩

end Primitive

open Primitive

/-! ## Swapping strategies -/

/-- **Another strategy changes the errors and nothing else.** The layers of both parsers are the same, except for what
traced ones write, and the sessions they are called in need not be. -/
theorem strategy_changes_errors_only [Alphabet κ α] [DecidableEq κ] [DecidableEq α] :
    (∀ (errors : ErrorStrategy V E) (errors' : ErrorStrategy V F) (f : E → F),
      (∀ input kind, f (errors.fromKind input kind) = errors'.fromKind input kind) →
      (∀ input label e, f (errors.addContext input label e) = errors'.addContext input label (f e)) →
      ∀ (primitive : Primitive V α) (layers : List (Layer E)) (layers' : List (Layer F)),
        List.Forall₂ Layer.Alike layers layers' →
        (∀ fault, primitive.layered errors layers = .error fault ↔ primitive.layered errors' layers' = .error fault) ∧
        ∀ parser parser', primitive.layered errors layers = .ok parser →
          primitive.layered errors' layers' = .ok parser' → ∀ input session session',
            (parser' input).answer session' = ((parser input).answer session).map (Outcome.mapErr f) ∧
            ((∀ layer ∈ layers, layer.keepsInput = true) →
              ∃ outcome, (parser input).answer session = .ok outcome)) ∧
    (∀ (primitive : Primitive V α) (verboseLayers : List (Layer (VerboseError V)))
      (simpleLayers : List (Layer (SimpleError V))) (unitLayers : List (Layer Unit)),
      List.Forall₂ Layer.Alike verboseLayers simpleLayers → List.Forall₂ Layer.Alike verboseLayers unitLayers →
      ∀ verboseParser simpleParser unitParser, primitive.layered .verbose verboseLayers = .ok verboseParser →
        primitive.layered .simple simpleLayers = .ok simpleParser →
        primitive.layered .unit unitLayers = .ok unitParser → ∀ input session session' session'',
          ((simpleParser input).answer session').map (Outcome.mapErr some) =
            ((verboseParser input).answer session).map (Outcome.mapErr VerboseError.first?) ∧
          (unitParser input).answer session'' =
            ((verboseParser input).answer session).map (Outcome.mapErr fun _ => ())) := by
  constructor
  · intro errors errors' f hkind hcontext primitive layers layers' hlayers
    constructor
    · intro fault
      exact ⟨layered_refused errors errors', layered_refused errors' errors⟩
    · intro parser parser' hmade hmade' input session session'
      have hrelated := layered_related (ErrorStrategy.related_of_map hkind hcontext) hlayers hmade hmade'
      refine ⟨eq_map_mapErr_of_endsRelated (hrelated input session session'), ?_⟩
      intro hkeeps
      exact exists_outcome hkeeps hmade input session
  · intro primitive verboseLayers simpleLayers unitLayers hsimple hunit verboseParser simpleParser unitParser hmade
      hmadeSimple hmadeUnit input session session' session''
    constructor
    · have hrelated := layered_related ErrorStrategy.verbose_related_simple hsimple hmade hmadeSimple
      exact (map_mapErr_eq_of_endsRelated (fun e e' he => he) (hrelated input session session')).symm
    · have hrelated := layered_related (ErrorStrategy.related_unit .verbose) hunit hmade hmadeUnit
      exact eq_map_mapErr_of_endsRelated (hrelated input session session'')

/-- a mismatch under two commit points with a traced layer between them, silent in one session and not in the other -/
theorem only_errors_change_under_commit_points :
    let input : Text := .ofUnits [0x62]
    let primitive : Primitive Text Element := .tag (.ofUnits [0x61])
    let depth : ErrorStrategy Text Nat :=
      { fromKind := fun _ _ => 1, append := fun _ _ e => e + 1, addContext := fun _ _ e => e + 1 }
    let layers (E : Type) (enabled : Option Bool) : List (Layer E) :=
      [.context [0x6F], .trace [0x74] ⟨enabled, fun _ => []⟩, .context [0x69]]
    let verbose := Layer.wrapAll .verbose (Parser.lift (Parser.tag (.ofUnits [0x61]) .verbose)) (layers _ none)
    let simple := Layer.wrapAll .simple (Parser.lift (Parser.tag (.ofUnits [0x61]) .simple)) (layers _ none)
    let unit := Layer.wrapAll .unit (Parser.lift (Parser.tag (.ofUnits [0x61]) .unit)) (layers _ none)
    let deep := Layer.wrapAll depth (Parser.lift (Parser.tag (.ofUnits [0x61]) depth)) (layers _ (some true))
    let quiet : Session := .initial []
    let loud : Session := .initial [(Config.mark ++ .ofString "DEBUG", .ofString "1")]
    let outcome : Outcome Text Text (VerboseError Text) :=
      .failure ⟨[(input, .kind .tag), (input, .context [0x69]), (input, .context [0x6F])]⟩
    primitive.layered .verbose (layers _ none) = .ok verbose ∧
    primitive.layered depth (layers _ (some true)) = .ok deep ∧
    (verbose input).answer quiet = .ok outcome ∧ (deep input).answer loud = .ok (.failure 3) ∧
    (deep input).answer loud = ((verbose input).answer quiet).map (Outcome.mapErr fun e => e.entries.length) ∧
    ((simple input).answer loud).map (Outcome.mapErr some) = .ok (.failure (some ⟨input, .tag⟩)) ∧
    (unit input).answer quiet = .ok (.failure ()) := by
  intro input primitive depth layers verbose simple unit deep quiet loud outcome
  have halike : ∀ (E F : Type) enabled enabled', List.Forall₂ Layer.Alike (layers E enabled) (layers F enabled') := by
    intro E F enabled enabled'
    exact .cons (.context _) (.cons (.trace _ _ _) (.cons (.context _) .nil))
  have hverbose : (verbose input).answer quiet = .ok outcome := by
    simp only [verbose, layers, Layer.wrapAll, Layer.wrap, Traced.answer_context, Traced.answer_trace,
      Traced.answer_lift]
    rfl
  obtain ⟨hswap, hnamed⟩ := strategy_changes_errors_only (V := Text) (E := VerboseError Text) (F := Nat)
  obtain ⟨-, hswap⟩ := hswap .verbose depth (fun e => e.entries.length) (fun _ _ => rfl)
    (fun _ _ _ => List.length_append) primitive _ _ (halike _ _ none (some true))
  obtain ⟨hdeep, -⟩ := hswap verbose deep rfl rfl input quiet loud
  obtain ⟨hsimple, hunit⟩ := hnamed primitive _ _ _ (halike _ _ none none) (halike _ _ none none) verbose simple unit
    rfl rfl rfl input quiet loud quiet
  rw [hverbose] at hsimple hunit
  exact ⟨rfl, rfl, hverbose, by rw [hdeep, hverbose]; rfl, hdeep, hsimple, hunit⟩

end SliceParser
