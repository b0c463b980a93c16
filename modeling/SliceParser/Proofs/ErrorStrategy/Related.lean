/-
RELATED ERRORS: outcomes that agree in everything but their errors, and strategies that make them.

- `Outcome.Related`: the same success, or failures of the same sort with related errors. `EndsRelated` is the same with
  faults, which have to be equal.
- `map_mapErr_eq_of_endsRelated`: related errors that become equal leave equal outcomes. `eq_map_mapErr_of_endsRelated`:
  where a function carries one error to the other, it carries one outcome to the other.
- `ErrorStrategy.Related`: two strategies that give related errors, and keep them related under labels. Three pairs are:
  strategies that a function carries over (`related_of_map`), the trail and its first entry (`verbose_related_simple`),
  and any strategy and the one that keeps nothing (`related_unit`).
-/
import SliceParser.ErrorStrategy.Basic
import SliceParser.Proofs.Layer.Answer

namespace SliceParser

/-! ## Outcomes that differ in their errors -/

section

variable {V O E F G : Type}

/-- failures of the same sort, with related errors -/
inductive Err.Related (R : E → F → Prop) : Err E → Err F → Prop
  | incomplete (needed : Needed) : Err.Related R (.incomplete needed) (.incomplete needed)
  | recoverable (e : E) (e' : F) : R e e' → Err.Related R (.recoverable e) (.recoverable e')
  | unrecoverable (e : E) (e' : F) : R e e' → Err.Related R (.unrecoverable e) (.unrecoverable e')

/-- the same success, or related failures -/
inductive Outcome.Related (R : E → F → Prop) : Outcome V O E → Outcome V O F → Prop
  | success (rest : V) (value : O) : Outcome.Related R (.success rest value) (.success rest value)
  | failed (err : Err E) (err' : Err F) : Err.Related R err err' → Outcome.Related R (.failed err) (.failed err')

/-- the same fault, or related outcomes -/
inductive EndsRelated (R : E → F → Prop) : Except Fault (Outcome V O E) → Except Fault (Outcome V O F) → Prop
  | fault (fault : Fault) : EndsRelated R (.error fault) (.error fault)
  | outcome (outcome : Outcome V O E) (outcome' : Outcome V O F) : Outcome.Related R outcome outcome' →
      EndsRelated R (.ok outcome) (.ok outcome')

variable {R : E → F → Prop}

theorem Outcome.related_committed {f : E → E} {f' : F → F} (hf : ∀ e e', R e e' → R (f e) (f' e'))
    {outcome : Outcome V O E} {outcome' : Outcome V O F} (h : Outcome.Related R outcome outcome') :
    Outcome.Related R (outcome.committed f) (outcome'.committed f') := by
  cases h with
  | success rest value => exact .success rest value
  | failed err err' herr =>
    cases herr with
    | incomplete needed => exact .failed _ _ (.incomplete needed)
    | recoverable e e' he => exact .failed _ _ (.unrecoverable _ _ (hf e e' he))
    | unrecoverable e e' he => exact .failed _ _ (.unrecoverable _ _ (hf e e' he))

theorem endsRelated_committed {f : E → E} {f' : F → F} (hf : ∀ e e', R e e' → R (f e) (f' e'))
    {run : Except Fault (Outcome V O E)} {run' : Except Fault (Outcome V O F)} (h : EndsRelated R run run') :
    EndsRelated R (run.map (Outcome.committed f)) (run'.map (Outcome.committed f')) := by
  cases h with
  | fault fault => exact .fault fault
  | outcome outcome outcome' h => exact .outcome _ _ (Outcome.related_committed hf h)

/-- related errors that become equal leave equal outcomes -/
theorem Outcome.mapErr_eq_of_related {f : E → G} {g : F → G} (hR : ∀ e e', R e e' → f e = g e')
    {outcome : Outcome V O E} {outcome' : Outcome V O F} (h : Outcome.Related R outcome outcome') :
    outcome.mapErr f = outcome'.mapErr g := by
  cases h with
  | success rest value => rfl
  | failed err err' herr =>
    cases herr with
    | incomplete needed => rfl
    | recoverable e e' he => rw [Outcome.mapErr, Outcome.mapErr, Err.map, Err.map, hR e e' he]
    | unrecoverable e e' he => rw [Outcome.mapErr, Outcome.mapErr, Err.map, Err.map, hR e e' he]

theorem Outcome.mapErr_id (outcome : Outcome V O E) : outcome.mapErr id = outcome := by
  cases outcome with
  | success rest value => rfl
  | failed err => cases err <;> rfl

theorem map_mapErr_eq_of_endsRelated {f : E → G} {g : F → G} (hR : ∀ e e', R e e' → f e = g e')
    {run : Except Fault (Outcome V O E)} {run' : Except Fault (Outcome V O F)} (h : EndsRelated R run run') :
    run.map (Outcome.mapErr f) = run'.map (Outcome.mapErr g) := by
  cases h with
  | fault fault => rfl
  | outcome outcome outcome' h => rw [Except.map, Except.map, Outcome.mapErr_eq_of_related hR h]

/-- errors that a function carries over are the errors of the second outcome -/
theorem eq_map_mapErr_of_endsRelated {f : E → F} {run : Except Fault (Outcome V O E)}
    {run' : Except Fault (Outcome V O F)} (h : EndsRelated (fun e e' => f e = e') run run') :
    run' = run.map (Outcome.mapErr f) := by
  rw [map_mapErr_eq_of_endsRelated (fun e e' he => he) h]
  cases run' with
  | error fault => rfl
  | ok outcome => exact congrArg Except.ok outcome.mapErr_id.symm

end

/-! ## Strategies with related errors -/

/-- the view and the kind that a trail begins with; nothing if it begins with anything else -/
def VerboseError.first? {V : Type} (error : VerboseError V) : Option (SimpleError V) :=
  match error.entries with
  | (input, .kind kind) :: _ => some ⟨input, kind⟩
  | _ => none

/-- what is added to a trail stands behind its first entry -/
theorem VerboseError.first?_push {V : Type} {error : VerboseError V} {first : SimpleError V}
    (h : error.first? = some first) (input : V) (entry : VerboseEntry) :
    (error.push input entry).first? = some first := by
  obtain ⟨entries⟩ := error
  cases entries with
  | nil => exact nomatch h
  | cons head tail =>
    obtain ⟨view, step⟩ := head
    cases step <;> exact h

namespace ErrorStrategy

variable {V E F : Type}

/-- both give related errors, and keep them related under a label -/
structure Related (R : E → F → Prop) (errors : ErrorStrategy V E) (errors' : ErrorStrategy V F) : Prop where
  fromKind : ∀ input kind, R (errors.fromKind input kind) (errors'.fromKind input kind)
  addContext : ∀ input label e e', R e e' → R (errors.addContext input label e) (errors'.addContext input label e')

theorem related_of_map {errors : ErrorStrategy V E} {errors' : ErrorStrategy V F} {f : E → F}
    (hkind : ∀ input kind, f (errors.fromKind input kind) = errors'.fromKind input kind)
    (hcontext : ∀ input label e, f (errors.addContext input label e) = errors'.addContext input label (f e)) :
    Related (fun e e' => f e = e') errors errors' where
  fromKind := hkind
  addContext := by
    rintro input label e e' rfl
    exact hcontext input label e

theorem verbose_related_simple : Related (V := V) (fun e e' => e.first? = some e') verbose simple where
  fromKind _ _ := rfl
  addContext input label _ _ h := VerboseError.first?_push h input (.context label)

theorem related_unit (errors : ErrorStrategy V E) : Related (fun _ e' => () = e') errors unit :=
  related_of_map (fun _ _ => rfl) (fun _ _ _ => rfl)

end ErrorStrategy

end SliceParser
