/-
VIEWS OBTAINED from a root by any run of cuttings, each applied to any view that was obtained before it.

- `Cutting`: the ways to get views from a view. `Cutting.apply`: the views that one gives, if it is not stopped.
- `cut_of_mem_apply`: whatever the way, what is given is a side of a cut.
- `obtained`: all views that a run gives, the root among them. A cutting that is stopped gives none.
- `forall_obtained`: **what the root satisfies, and with every view both sides of its cuts, all views obtained
  satisfy.**
- `IsSoundPart`: what holds of a view obtained. Its window lies inside the root, it shows what the root shows there, its
  offset says where that is, and it can be cut again as it should.
- `cuts_show_the_root`: **every view obtained is a sound part of its root**, in a text without exception, and in octets
  with the positions in reach. `offset_strays_far_out`: beyond them positions are rounded, and an offset no longer says
  where its view lies.
-/
import SliceParser.Proofs.Primitive.Answer
import SliceParser.Proofs.View.Window

namespace SliceParser

/-! ## Steps that are not stopped -/

theorem exists_ok_of_map {α β : Type} {x : Except Fault α} {f : α → β} {b : β} (h : x.map f = .ok b) :
    ∃ a, x = .ok a ∧ f a = b := by
  cases x with
  | error fault => exact nomatch h
  | ok a => exact ⟨a, rfl, Except.ok.inj h⟩

theorem exists_ok_of_bind {α β : Type} {x : Except Fault α} {f : α → Except Fault β} {b : β} (h : x.bind f = .ok b) :
    ∃ a, x = .ok a ∧ f a = .ok b := by
  cases x with
  | error fault => exact nomatch h
  | ok a => exact ⟨a, rfl, h⟩

/-! ## Cuttings -/

/-- the ways to get views from a view -/
inductive Cutting (V α : Type) : Type 1 where
  | takeSplit (offset : Number)
  | takeTo (offset : Number)
  | splitAtPosition (p : α → Bool)
  | splitAtPosition1 {E : Type} (p : α → Bool) (kind : ErrorKind) (errors : ErrorStrategy V E)
  | parse {E : Type} (errors : ErrorStrategy V E) (primitive : Primitive V α)

/-- the views of a success, the rest first -/
def Outcome.views {V E : Type} : Outcome V V E → List V
  | .success rest value => [rest, value]
  | .failed _ => []

namespace Cutting

section

variable {V κ ω E : Type} [Position ω] [View V κ ω]

/-- one of the two sides of a cut -/
def IsSide (v w : V) : Prop :=
  ∃ k, k ≤ View.length v ∧ (w = View.drop v k ∨ w = View.take v k)

theorem isSide_of_takeSplit {v w : V} {sides : V × V} {offset : Number} (h : View.takeSplit v offset = .ok sides)
    (hw : w ∈ [sides.1, sides.2]) : IsSide v w := by
  obtain ⟨k, -, hle, hrest, hvalue⟩ := View.takeSplit_eq_ok.1 h
  rw [hrest, hvalue] at hw
  exact ⟨k, hle, List.mem_pair.1 hw⟩

theorem isSide_of_cut {v w : V} {k : Nat} (hk : k ≤ View.length v)
    (hw : w ∈ (Outcome.success (View.drop v k) (View.take v k) : Outcome V V E).views) : IsSide v w :=
  ⟨k, hk, List.mem_pair.1 hw⟩

end

variable {V κ α ω : Type} [Position ω] [View V κ ω] [Alphabet κ α] [DecidableEq κ] [DecidableEq α]

/-- the views that a cutting gives, the rest first -/
def apply (v : V) : Cutting V α → Except Fault (List V)
  | .takeSplit offset => (View.takeSplit v offset).map fun (rest, value) => [rest, value]
  | .takeTo offset => (View.takeTo v offset).map fun value => [value]
  | .splitAtPosition p => (View.splitAtPosition v p).map fun (rest, value) => [rest, value]
  | .splitAtPosition1 p kind errors => (Parser.splitAtPosition1 v p kind errors).map Outcome.views
  | .parse errors primitive => (primitive.build errors).bind fun parser => (parser v).map Outcome.views

/-- **Whatever the way, what is given is a side of a cut.** -/
theorem cut_of_mem_apply {v w : V} {cutting : Cutting V α} {views : List V} (h : cutting.apply v = .ok views)
    (hw : w ∈ views) : IsSide v w := by
  cases cutting with
  | takeSplit offset =>
    obtain ⟨sides, hsplit, rfl⟩ := exists_ok_of_map h
    exact isSide_of_takeSplit hsplit hw
  | takeTo offset =>
    rw [apply, View.takeTo_eq] at h
    obtain ⟨value, hvalue, rfl⟩ := exists_ok_of_map h
    obtain ⟨sides, hsplit, rfl⟩ := exists_ok_of_map hvalue
    exact isSide_of_takeSplit hsplit (List.mem_cons_of_mem _ hw)
  | splitAtPosition p =>
    obtain ⟨sides, hsplit, rfl⟩ := exists_ok_of_map h
    exact isSide_of_takeSplit hsplit hw
  | splitAtPosition1 p kind errors =>
    obtain ⟨outcome, hrun, rfl⟩ := exists_ok_of_map h
    have hend : View.runEnd v p ≤ View.length v := (View.runEnd_isBoundary v p).le_length
    change (if View.runEnd v p = 0 then _ else Parser.cut v (View.runEnd v p)) = _ at hrun
    split_ifs at hrun
    · obtain rfl := Except.ok.inj hrun
      exact nomatch hw
    · rw [Parser.cut_eq v _ hend] at hrun
      obtain rfl := Except.ok.inj hrun
      exact isSide_of_cut hend hw
  | parse errors primitive =>
    obtain ⟨parser, hbuild, hparse⟩ := exists_ok_of_bind h
    obtain ⟨outcome, hrun, rfl⟩ := exists_ok_of_map hparse
    obtain ⟨answer, hanswer, hanswers⟩ := Primitive.build_answers hbuild v
    obtain rfl := Except.ok.inj (hrun.symm.trans hanswer)
    cases hanswers with
    | cut k hk => exact isSide_of_cut (Primitive.matched?_le hk) hw
    | error kind _ _ => exact nomatch hw

end Cutting

/-! ## Runs -/

section

variable {V κ α ω : Type} [Position ω] [View V κ ω] [Alphabet κ α] [DecidableEq κ] [DecidableEq α]

/-- one of the views obtained so far is cut; if the cutting is stopped, nothing is added -/
def Cutting.step (views : List V) (move : Nat × Cutting V α) : List V :=
  match views[move.1]? with
  | none => views
  | some v =>
    match move.2.apply v with
    | .ok new => views ++ new
    | .error _ => views

/-- all views that a run of cuttings gives, the oldest first -/
def obtained (root : V) (run : List (Nat × Cutting V α)) : List V :=
  run.foldl Cutting.step [root]

theorem Cutting.forall_step {P : V → Prop} (hcut : ∀ v w, P v → Cutting.IsSide v w → P w) {views : List V}
    (hviews : ∀ v ∈ views, P v) (move : Nat × Cutting V α) : ∀ v ∈ Cutting.step views move, P v := by
  unfold Cutting.step
  split
  · exact hviews
  · rename_i v hv
    have hPv : P v := hviews v (List.mem_of_getElem? hv)
    split
    · rename_i new happly
      intro w hw
      rcases List.mem_append.1 hw with hold | hnew
      · exact hviews w hold
      · exact hcut v w hPv (cut_of_mem_apply happly hnew)
    · exact hviews

/-- **What the root satisfies, and with every view both sides of its cuts, all views obtained satisfy.** -/
theorem forall_obtained {P : V → Prop} {root : V} (hroot : P root) (hcut : ∀ v w, P v → Cutting.IsSide v w → P w)
    (run : List (Nat × Cutting V α)) : ∀ v ∈ obtained root run, P v := by
  have hrun : ∀ views : List V, (∀ v ∈ views, P v) → ∀ v ∈ run.foldl Cutting.step views, P v := by
    induction run with
    | nil => exact fun views hviews => hviews
    | cons move run ih => exact fun views hviews => ih _ (Cutting.forall_step hcut hviews move)
  exact hrun [root] fun v hv => by rwa [List.mem_singleton.1 hv]

end

/-! ## What holds of a view obtained -/

/-- a part of a root, `d` units behind its start, whose positions are exact as far as places are in `Reach` -/
structure IsSoundPart {V κ ω : Type} [Position ω] [View V κ ω] (root : V) (Reach : Nat → Prop) (d : Nat) (v : V) :
    Prop where
  sameBase : View.sameBase v root = true
  window : View.IsWindow root d v
  content_eq : View.content v = ((View.content root).drop d).take (View.length v)
  displacement_eq : Reach d → View.displacement v root = some (d : Int)
  takeTo_eq : ∀ offset, View.takeTo v offset = (View.takeSplit v offset).map Prod.snd
  rests_lie_alike : ∀ a b, View.RestsCompose (fun w w' => View.span w = View.span w') v a b
  rests_equal : ∀ a b, Reach (d + a + b) → View.RestsCompose Eq v a b
  accepted : ∀ k, k ≤ View.length v → ∃ rest value, View.IsCut v k rest value
  refused : ∀ offset : Number, (∀ k : Nat, k ≤ View.length v → offset ≠ .ofNat k) →
    View.takeSplit v offset = .error (.offsetOutside offset (View.length v)) ∧
    View.takeTo v offset = .error (.offsetOutside offset (View.length v))

/-- what is left to show of a window of the root, because it depends on the kind of view -/
theorem isSoundPart_of_isWindow {V κ ω : Type} [Position ω] [View V κ ω] {root v : V} {Reach : Nat → Prop} {d : Nat}
    (hwindow : View.IsWindow root d v) (hbase : View.sameBase v root = true)
    (hdisplacement : Reach d → View.displacement v root = some (d : Int))
    (hrests : ∀ a b, Reach (d + a + b) → View.RestsCompose Eq v a b) : IsSoundPart root Reach d v where
  sameBase := hbase
  window := hwindow
  content_eq := hwindow.content_eq
  displacement_eq := hdisplacement
  takeTo_eq := View.takeTo_eq v
  rests_lie_alike := View.restsCompose_span v
  rests_equal := hrests
  accepted k hk := ⟨_, _, View.isCut v hk⟩
  refused offset hrange := by
    have hsplit := View.takeSplit_refused hrange
    refine ⟨hsplit, ?_⟩
    rw [View.takeTo_eq, hsplit]
    rfl

theorem Text.obtained_isWindow {root : Text} (run : List (Nat × Cutting Text Element)) :
    ∀ v ∈ obtained root run, ∃ d, View.IsWindow root d v := by
  refine forall_obtained (P := fun v => ∃ d, View.IsWindow root d v) ⟨0, View.isWindow_self root⟩ ?_ run
  rintro v w ⟨d, hwindow⟩ ⟨k, hk, rfl | rfl⟩
  · exact ⟨d + k, hwindow.drop hk⟩
  · exact ⟨d, hwindow.take hk⟩

/-- in octets the buffer is kept as well, and the position is exact while it is in reach -/
structure Bytes.IsExactPart (root : Bytes) (o : Int) (d : Nat) (v : Bytes) : Prop where
  window : View.IsWindow root d v
  buffer_eq : v.buffer = root.buffer
  offset_eq : (o + d).natAbs ≤ 2 ^ 53 → v.offset = .ofInt (o + d)

theorem Bytes.obtained_isExactPart {root : Bytes} {o : Int} (ho : root.offset = .ofInt o) (hsafe : o.natAbs < 2 ^ 53)
    (run : List (Nat × Cutting Bytes UInt8)) : ∀ v ∈ obtained root run, ∃ d, Bytes.IsExactPart root o d v := by
  refine forall_obtained (P := fun v => ∃ d, Bytes.IsExactPart root o d v) ?_ ?_ run
  · refine ⟨0, View.isWindow_self root, rfl, fun _ => ?_⟩
    simpa using ho
  · rintro v w ⟨d, hwindow, hbuffer, hoffset⟩ ⟨k, hk, rfl | rfl⟩
    · refine ⟨d + k, hwindow.drop hk, hbuffer, fun hreach => ?_⟩
      -- the root is in reach, and so is what lies between it and the rest
      exact Bytes.offset_drop_exact (hoffset (by omega)) hk hreach
    · exact ⟨d, hwindow.take hk, hbuffer, hoffset⟩

/-- **Every view obtained is a sound part of its root**, in a text wherever it lies, and in octets as far as positions
are in reach, if the root lies at a safe one. -/
theorem cuts_show_the_root :
    (∀ (root : Text) (run : List (Nat × Cutting Text Element)), ∀ v ∈ obtained root run,
      ∃ d, IsSoundPart root (fun _ => True) d v) ∧
    (∀ root : Bytes, root.offset.IsSafe → ∀ run : List (Nat × Cutting Bytes UInt8), ∀ v ∈ obtained root run,
      ∃ d, IsSoundPart root (View.InReach root) d v) := by
  constructor
  · intro root run v hv
    obtain ⟨d, hwindow⟩ := Text.obtained_isWindow run v hv
    refine ⟨d, isSoundPart_of_isWindow hwindow (Text.sameBase_of_isWindow hwindow) ?_ ?_⟩
    · intro _
      exact Text.displacement_of_isWindow hwindow
    · intro a b _
      exact Text.restsCompose v a b
  · rintro root ⟨o, ho, hsafe⟩ run v hv
    have hroot : View.offsetNumber root = .ofInt o := ho
    obtain ⟨d, hwindow, hbuffer, hoffset⟩ := Bytes.obtained_isExactPart ho hsafe run v hv
    refine ⟨d, isSoundPart_of_isWindow hwindow (Bytes.sameBase_of_isWindow hwindow hbuffer) ?_ ?_⟩
    · intro hreach
      have hplace : View.offsetNumber v = .ofInt (o + d) := hoffset ((View.inReach_iff hroot d).1 hreach)
      rw [View.displacement_of_ofInt hplace hroot]
      congr 1
      omega
    · intro a b hreach
      have hfar := (View.inReach_iff hroot _).1 hreach
      exact Bytes.restsCompose hsafe (hoffset (by omega)) hfar

/-- a window that cuts a pair in two, with a refused offset between the cuts, and octets up to the last place in
reach -/
theorem parts_sound_along_mixed_runs :
    let root : Text := ⟨⟨[0xD83D, 0xDE00, 0x61, 0x62, 0x63], 1, 5, by decide, by decide⟩⟩
    let run : List (Nat × Cutting Text Element) :=
      [(0, .takeSplit (.ofNat 1)), (1, .takeTo (.ofNat 9)), (1, .parse .simple (.takeUntil (.ofUnits [0x63])))]
    let value : Text := View.take (View.drop root 1) 2
    let far : Bytes := .ofOctets [1, 2, 3] 0 (.ofInt (2 ^ 53 - 3))
    let runFar : List (Nat × Cutting Bytes UInt8) := [(0, .takeSplit (.ofNat 2)), (1, .splitAtPosition fun _ => false)]
    let last : Bytes := View.drop (View.drop far 2) 1
    obtained root run = [root, View.drop root 1, View.take root 1, View.drop (View.drop root 1) 2, value] ∧
    View.content value = [0x61, 0x62] ∧ (∃ d, IsSoundPart root (fun _ => True) d value) ∧
    far.offset.IsSafe ∧ last ∈ obtained far runFar ∧ View.InReach far 3 ∧
    ∃ d, IsSoundPart far (View.InReach far) d last := by
  intro root run value far runFar last
  have hrun : obtained root run = [root, View.drop root 1, View.take root 1, View.drop (View.drop root 1) 2, value] :=
    rfl
  have hvalue : value ∈ obtained root run := List.mem_of_getElem? (i := 4) rfl
  have hsafe : far.offset.IsSafe := ⟨2 ^ 53 - 3, rfl, by decide⟩
  have hlast : last ∈ obtained far runFar := List.mem_of_getElem? (i := 3) rfl
  have hreach : View.InReach far 3 := ⟨2 ^ 53 - 3, rfl, by decide⟩
  exact ⟨hrun, rfl, cuts_show_the_root.1 root run value hvalue, hsafe, hlast, hreach,
    cuts_show_the_root.2 far hsafe runFar last hlast⟩

/-- behind the last safe position, a rest says that it lies one unit nearer than it does, and two cuts leave it two
units away from where one cut leaves it -/
theorem offset_strays_far_out :
    let root : Bytes := .ofOctets [1, 2, 3] 0 (.ofInt (2 ^ 53 - 1))
    let rest : Bytes := View.drop root 2
    root.offset.IsSafe ∧ rest ∈ obtained root [(0, (.takeSplit (.ofNat 2) : Cutting Bytes UInt8))] ∧
    ¬ (∃ d : Nat, View.displacement rest root = some (d : Int) ∧
      View.content rest = ((View.content root).drop d).take (View.length rest)) ∧
    ¬ View.RestsCompose Eq root 2 1 := by
  intro root rest
  refine ⟨⟨2 ^ 53 - 1, rfl, by decide⟩, List.mem_of_getElem? (i := 1) rfl, ?_, ?_⟩
  · rintro ⟨d, hdisplacement, hcontent⟩
    have hone : View.displacement rest root = some 1 := by decide +kernel
    obtain rfl : d = 1 := Int.ofNat.inj (Option.some.inj (hdisplacement.symm.trans hone))
    exact absurd hcontent (by decide)
  · intro hcompose
    obtain ⟨last, consumed, hlast, heq⟩ :=
      hcompose rest (View.take root 2) (View.drop rest 1) (View.take rest 1) rfl rfl
    obtain ⟨-, rfl, -⟩ := View.takeSplit_ofNat_eq_ok hlast
    have hoffset : (View.drop rest 1 : Bytes).offset ≠ (View.drop root 3 : Bytes).offset := by decide +kernel
    exact hoffset (congrArg Bytes.offset heq)

end SliceParser
