/-
COMMIT POINTS along a way in: what an error has become when it comes out.

- `Descends`: the calls that one call makes on its way to the parser inside. Every layer on the way commits, traces, or
  goes on with what lies behind an offset of its own input. The commits are listed, innermost first, each with the view
  it was called with.
- `answer_of_descends`: **the outermost layer answers what the parser inside answers, committed at every commit of the
  way, the innermost first.**
- `committedAll`: an outcome that comes out through commits. A success and a request for more input are left alone, and
  with verbose errors every commit is one entry behind those of the error (`committedAll_error`).
- `View.MovesForward`: views whose cuts do not fall behind. All texts are (`Text.movesForward`), and all byte views at
  a position that rounding does not change (`Bytes.movesForward`). On their way in positions never decrease, so on the
  way out they never increase (`pairwise_of_descends`).
- `commits_leave_trail`: **the trail of an error is its own entries and then one for each commit, from the innermost to
  the outermost, at positions that never increase.**

Layers that trace on the way in do not get in the way: the texts of errors in their lines are total functions, as the
strategy is.
-/
import SliceParser.Proofs.Layer.Answer
import SliceParser.Proofs.Number.Rounding
import SliceParser.Proofs.View.Window

namespace SliceParser

/-! ## Out through commits -/

namespace Outcome

section

variable {V O E : Type}

/-- an outcome as it comes out through commits, the innermost first -/
def committedAll (errors : ErrorStrategy V E) (commits : List (V × Units)) (outcome : Outcome V O E) :
    Outcome V O E :=
  commits.foldl (fun inner commit => inner.committed (errors.addContext commit.1 commit.2)) outcome

variable {errors : ErrorStrategy V E} {commits : List (V × Units)}

theorem committedAll_concat (view : V) (label : Units) (outcome : Outcome V O E) :
    outcome.committedAll errors (commits ++ [(view, label)]) =
      (outcome.committedAll errors commits).committed (errors.addContext view label) := by
  simp only [committedAll, List.foldl_append, List.foldl_cons, List.foldl_nil]

theorem committedAll_success (rest : V) (value : O) :
    (Outcome.success rest value).committedAll errors commits = .success rest value := by
  induction commits with
  | nil => rfl
  | cons commit commits ih => exact ih

theorem committedAll_incomplete (needed : Needed) :
    (Outcome.failed (.incomplete needed) : Outcome V O E).committedAll errors commits =
      .failed (.incomplete needed) := by
  induction commits with
  | nil => rfl
  | cons commit commits ih => exact ih

end

variable {V O : Type}

/-- the entries that commits add to a trail -/
def contextEntries (commits : List (V × Units)) : List (V × VerboseEntry) :=
  commits.map fun commit => (commit.1, .context commit.2)

theorem committedAll_failure (commits : List (V × Units)) (e : VerboseError V) :
    (Outcome.failure e : Outcome V O (VerboseError V)).committedAll .verbose commits =
      .failure ⟨e.entries ++ contextEntries commits⟩ := by
  induction commits generalizing e with
  | nil => rw [contextEntries, List.map_nil, List.append_nil]; rfl
  | cons commit commits ih =>
    refine (ih (e.push commit.1 (.context commit.2))).trans ?_
    rw [VerboseError.push, List.append_assoc]
    rfl

/-- the first commit makes the error unrecoverable -/
theorem committedAll_error {commits : List (V × Units)} (h : commits ≠ []) (e : VerboseError V) :
    (Outcome.error e : Outcome V O (VerboseError V)).committedAll .verbose commits =
      .failure ⟨e.entries ++ contextEntries commits⟩ := by
  cases commits with
  | nil => exact absurd rfl h
  | cons commit commits => exact committedAll_failure (commit :: commits) e

end Outcome

/-! ## The way in -/

section

variable {V κ ω O E : Type} [Position ω] [View V κ ω] [Shown O]

/-- called with the first view, the second parser calls the first parser with the second view, and commits on the way at
the views and with the labels listed, the innermost first -/
inductive Descends (errors : ErrorStrategy V E) (parser : ParserT Traced V O E) :
    ParserT Traced V O E → V → V → List (V × Units) → Prop
  | inside (core : V) : Descends errors parser parser core core []
  | context {outer : ParserT Traced V O E} {input core : V} {commits : List (V × Units)} (label : Units) :
      Descends errors parser outer input core commits →
      Descends errors parser (Parser.context label errors outer) input core (commits ++ [(input, label)])
  | trace {outer : ParserT Traced V O E} {input core : V} {commits : List (V × Units)} (writer : Writer)
      (label : Units) (options : TraceOptions E) : Descends errors parser outer input core commits →
      Descends errors parser (Parser.traceTo writer label options outer) input core commits
  /-- which offset it is may depend on the input -/
  | skip {outer : ParserT Traced V O E} {input rest front core : V} {commits : List (V × Units)} (offset : V → Number) :
      View.takeSplit input (offset input) = .ok (rest, front) → Descends errors parser outer rest core commits →
      Descends errors parser (fun view => Parser.skip (offset view) outer view) input core commits

variable {errors : ErrorStrategy V E} {parser outer : ParserT Traced V O E} {input core : V}
  {commits : List (V × Units)}

/-- **The parser inside decides, and every commit on the way marks its errors.** -/
theorem answer_of_descends (h : Descends errors parser outer input core commits) (session : Session) :
    (outer input).answer session = ((parser core).answer session).map (Outcome.committedAll errors commits) := by
  induction h with
  | inside core =>
    cases (parser core).answer session with
    | error fault => rfl
    | ok outcome => rfl
  | @context outer input core commits label _ ih =>
    rw [Traced.answer_context, ih]
    cases (parser core).answer session with
    | error fault => rfl
    | ok outcome => exact congrArg Except.ok (Outcome.committedAll_concat input label outcome).symm
  | trace writer label options _ ih => exact (Traced.answer_traceTo _ _ _ _ _ _).trans ih
  | skip offset hsplit _ ih =>
    rw [Traced.answer_skip, hsplit]
    exact ih

/-! ## Positions on the way -/

namespace View

/-- cutting such a view leaves such a view, and one that does not lie further back -/
def MovesForward (P : V → Prop) : Prop :=
  ∀ v k, P v → k ≤ length v → P (View.drop v k) ∧ (offsetNumber v).AtMost (offsetNumber (View.drop v k))

end View

variable {P : V → Prop}

/-- the invariant of the way in: every commit lies at or behind the input -/
theorem atMost_of_descends (hP : View.MovesForward P) (h : Descends errors parser outer input core commits)
    (hinput : P input) :
    ∀ commit ∈ commits, (View.offsetNumber input).AtMost (View.offsetNumber commit.1) := by
  induction h with
  | inside core => simp
  | @context outer input core commits label _ ih =>
    intro commit hmem
    rcases List.mem_append.1 hmem with hinner | hlast
    · exact ih hinput commit hinner
    · rw [List.mem_singleton.1 hlast]
      exact Number.atMost_refl _
  | trace writer label options _ ih => exact ih hinput
  | @skip outer input rest front core commits offset hsplit _ ih =>
    intro commit hmem
    obtain ⟨k, -, hle, rfl, -⟩ := View.takeSplit_eq_ok.1 hsplit
    obtain ⟨hrest, hforward⟩ := hP input k hinput hle
    exact Number.atMost_trans hforward (ih hrest commit hmem)

theorem pairwise_of_descends (hP : View.MovesForward P) (h : Descends errors parser outer input core commits)
    (hinput : P input) :
    commits.Pairwise fun inner outer => (View.offsetNumber outer.1).AtMost (View.offsetNumber inner.1) := by
  induction h with
  | inside core => exact .nil
  | @context outer input core commits label hdescends ih =>
    rw [List.pairwise_append]
    refine ⟨ih hinput, List.pairwise_singleton _ _, ?_⟩
    intro inner hinner last hlast
    rw [List.mem_singleton.1 hlast]
    exact atMost_of_descends hP hdescends hinput inner hinner
  | trace writer label options _ ih => exact ih hinput
  | @skip outer input rest front core commits offset hsplit _ ih =>
    obtain ⟨k, -, hle, rfl, -⟩ := View.takeSplit_eq_ok.1 hsplit
    exact ih (hP input k hinput hle).1

end

theorem Text.movesForward : View.MovesForward fun _ : Text => True := by
  intro v k _ hk
  refine ⟨trivial, ?_⟩
  have hmove : (View.drop v k : Text).start = v.start + k := View.offset_drop v k hk
  have hle : v.start ≤ (View.drop v k : Text).start := by omega
  exact Or.inl ((Number.ofNat_le_ofNat _ _).trans (decide_eq_true hle))

theorem Bytes.movesForward : View.MovesForward fun v : Bytes => v.offset.IsRounded := by
  intro v k hrounded hk
  have hmove : (View.drop v k : Bytes).offset = v.offset.add (.ofNat k) := View.offset_drop v k hk
  constructor
  · show (View.drop v k : Bytes).offset.IsRounded
    rw [hmove]
    exact Number.isRounded_add v.offset (.ofNat k)
  · show v.offset.AtMost (View.drop v k : Bytes).offset
    rw [hmove]
    exact Number.atMost_add hrounded k

/-! ## The trail -/

section

variable {V κ ω O : Type} [Position ω] [View V κ ω] [Shown O]

/-- what comes out of the outer parser, for everything that the parser inside may answer -/
structure LeavesTrail (parser outer : ParserT Traced V O (VerboseError V)) (input core : V)
    (commits : List (V × Units)) : Prop where
  success : ∀ session rest value, (parser core).answer session = .ok (.success rest value) →
    (outer input).answer session = .ok (.success rest value)
  incomplete : ∀ session needed, (parser core).answer session = .ok (.failed (.incomplete needed)) →
    (outer input).answer session = .ok (.failed (.incomplete needed))
  committed : commits ≠ [] → ∀ session e,
    (parser core).answer session = .ok (.error e) ∨ (parser core).answer session = .ok (.failure e) →
    (outer input).answer session = .ok (.failure ⟨e.entries ++ Outcome.contextEntries commits⟩)
  uncommitted : commits = [] → ∀ session, (outer input).answer session = (parser core).answer session
  offsets : (Outcome.contextEntries commits).Pairwise fun inner outer =>
    (View.offsetNumber outer.1).AtMost (View.offsetNumber inner.1)

theorem leavesTrail_of_descends {P : V → Prop} (hP : View.MovesForward P)
    {parser outer : ParserT Traced V O (VerboseError V)} {input core : V} {commits : List (V × Units)}
    (h : Descends .verbose parser outer input core commits) (hinput : P input) :
    LeavesTrail parser outer input core commits where
  success session rest value hanswer := by
    rw [answer_of_descends h, hanswer]
    exact congrArg Except.ok (Outcome.committedAll_success rest value)
  incomplete session needed hanswer := by
    rw [answer_of_descends h, hanswer]
    exact congrArg Except.ok (Outcome.committedAll_incomplete needed)
  committed hcommits session e hanswer := by
    rw [answer_of_descends h]
    rcases hanswer with herror | hfailure
    · rw [herror]
      exact congrArg Except.ok (Outcome.committedAll_error hcommits e)
    · rw [hfailure]
      exact congrArg Except.ok (Outcome.committedAll_failure commits e)
  uncommitted hnone session := by
    subst hnone
    rw [answer_of_descends h]
    cases (parser core).answer session with
    | error fault => rfl
    | ok outcome => rfl
  offsets := List.pairwise_map.2 (pairwise_of_descends hP h hinput)

end

/-- **An error comes out with its own entries and then one for each commit, from the innermost to the outermost.** What
is not an error comes out as it is, and so does an error without a commit on its way. -/
theorem commits_leave_trail :
    (∀ {O : Type} [Shown O] {parser outer : ParserT Traced Text O (VerboseError Text)} {input core : Text}
      {commits : List (Text × Units)}, Descends .verbose parser outer input core commits →
      LeavesTrail parser outer input core commits) ∧
    (∀ {O : Type} [Shown O] {parser outer : ParserT Traced Bytes O (VerboseError Bytes)} {input core : Bytes}
      {commits : List (Bytes × Units)}, Descends .verbose parser outer input core commits → input.offset.IsRounded →
      LeavesTrail parser outer input core commits) := by
  constructor
  · intro O _ parser outer input core commits h
    exact leavesTrail_of_descends Text.movesForward h trivial
  · intro O _ parser outer input core commits h hrounded
    exact leavesTrail_of_descends Bytes.movesForward h hrounded

/-- an error two units behind the input, with a commit in front of each of them and a traced layer between -/
theorem trail_left_by_two_commits :
    let text : Text := .ofUnits [0x61, 0x62, 0x63]
    let octets : Bytes := .ofOctets [0x61, 0x62, 0x63] 0 (.ofNat 5)
    let inside (V : Type) : ParserT Traced V V (VerboseError V) := fun view => return .error ⟨[(view, .kind .verify)]⟩
    let layers (E : Type) : List (Layer E) :=
      [.context [0x6F], .skip (.ofNat 1), .trace [0x74] ⟨none, fun _ => []⟩, .context [0x69], .skip (.ofNat 1)]
    let outerText := Layer.wrapAll .verbose (inside Text) (layers _)
    let outerOctets := Layer.wrapAll .verbose (inside Bytes) (layers _)
    let session : Session := .initial []
    Descends .verbose (inside Text) outerText text (View.drop (View.drop text 1) 1)
      [(View.drop text 1, [0x69]), (text, [0x6F])] ∧
    (outerText text).answer session = .ok (.failure ⟨[(View.drop (View.drop text 1) 1, .kind .verify),
      (View.drop text 1, .context [0x69]), (text, .context [0x6F])]⟩) ∧
    Descends .verbose (inside Bytes) outerOctets octets (View.drop (View.drop octets 1) 1)
      [(View.drop octets 1, [0x69]), (octets, [0x6F])] ∧
    octets.offset.IsRounded ∧
    (outerOctets octets).answer session = .ok (.failure ⟨[(View.drop (View.drop octets 1) 1, .kind .verify),
      (View.drop octets 1, .context [0x69]), (octets, .context [0x6F])]⟩) := by
  intro text octets inside layers outerText outerOctets session
  have hway {V κ ω : Type} [Position ω] [View V κ ω] (v : V) (h : 2 ≤ View.length v) :
      Descends .verbose (inside V) (Layer.wrapAll .verbose (inside V) (layers _)) v (View.drop (View.drop v 1) 1)
        [(View.drop v 1, [0x69]), (v, [0x6F])] := by
    have hfirst := View.takeSplit_ofNat v 1 (by omega)
    have hsecond := View.takeSplit_ofNat (View.drop v 1) 1 (by rw [View.length_drop]; omega)
    have hinside : Descends .verbose (inside V) (inside V) (View.drop (View.drop v 1) 1) _ [] := .inside _
    have hinner := (hinside.skip (fun _ => .ofNat 1) hsecond).context [0x69]
    have hshown := hinner.trace (fun _ settings => settings) [0x74] ⟨none, fun _ => []⟩
    exact (hshown.skip (fun _ => .ofNat 1) hfirst).context [0x6F]
  have htext := hway text (by decide)
  have hoctets := hway octets (by decide)
  have hrounded : octets.offset.IsRounded := Number.round_intCast (by decide)
  obtain ⟨hofText, hofOctets⟩ := commits_leave_trail
  refine ⟨htext, ?_, hoctets, hrounded, ?_⟩
  · exact (hofText htext).committed (List.cons_ne_nil _ _) session _ (Or.inl rfl)
  · exact (hofOctets hoctets hrounded).committed (List.cons_ne_nil _ _) session _ (Or.inl rfl)

end SliceParser
