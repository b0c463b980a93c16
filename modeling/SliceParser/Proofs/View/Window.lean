/-
WINDOWS INSIDE WINDOWS: what a view shows of the view that it was cut from, any number of cuts away.

- `IsWindow root d v`: `v` lies on the base of `root`, `d` units behind its start, and ends no later than `root` does.
  A root is a window of itself, and both sides of a cut of a window are windows of the root (`IsWindow.drop`,
  `IsWindow.take`). A window shows what the root shows there (`IsWindow.content_eq`).
- `takeSplit_refused`: **an offset that is not a natural in range cuts nothing.** `takeTo_eq`: taking is the front half
  of splitting, whatever the offset.
- `RestsCompose`: cutting twice leaves a rest that cutting once leaves too. It is the same view in a text
  (`Text.restsCompose`), in octets while positions stay in reach (`Bytes.restsCompose`), and it lies in the same place
  always (`restsCompose_span`).
-/
import SliceParser.Proofs.View.Cut

namespace SliceParser

namespace View

variable {V κ ω : Type} [Position ω] [View V κ ω]

/-! ## Windows -/

/-- on the base of the root, `d` units behind its start, and no further than its end -/
structure IsWindow (root : V) (d : Nat) (v : V) : Prop where
  base_eq : (span v).base = (span root).base
  start_eq : (span v).start = (span root).start + d
  stop_le : (span v).stop ≤ (span root).stop

theorem isWindow_self (v : V) : IsWindow v 0 v :=
  ⟨rfl, rfl, Nat.le_refl _⟩

namespace IsWindow

variable {root v : V} {d k : Nat}

theorem drop (h : IsWindow root d v) (hk : k ≤ length v) : IsWindow root (d + k) (View.drop v k) := by
  have hk : k ≤ (span v).length := hk
  constructor
  · rw [span_drop, Span.base_drop, h.base_eq]
  · rw [span_drop, Span.start_drop, Nat.min_eq_left hk, h.start_eq, Nat.add_assoc]
  · rw [span_drop, Span.stop_drop]
    exact h.stop_le

theorem take (h : IsWindow root d v) (hk : k ≤ length v) : IsWindow root d (View.take v k) := by
  have hk : k ≤ (span v).length := hk
  have hle := (span v).start_le_stop
  have hstop := h.stop_le
  constructor
  · rw [span_take, Span.base_take, h.base_eq]
  · rw [span_take, Span.start_take, h.start_eq]
  · rw [span_take, Span.stop_take, Nat.min_eq_left hk]
    rw [Span.length] at hk
    omega

theorem add_length_le (h : IsWindow root d v) : d + length v ≤ length root := by
  have hle := (span v).start_le_stop
  have hstart := h.start_eq
  have hstop := h.stop_le
  rw [length, length, Span.length, Span.length]
  omega

/-- a window shows what the root shows there -/
theorem content_eq (h : IsWindow root d v) : content v = ((content root).drop d).take (length v) := by
  have hadd : length v ≤ (span root).length - d := by
    have hroot : length root = (span root).length := rfl
    have := h.add_length_le
    omega
  calc content v = ((span v).base.drop (span v).start).take (length v) := rfl
    _ = (((span root).base.drop (span root).start).drop d).take (length v) := by
      rw [h.base_eq, h.start_eq, List.drop_drop]
    _ = ((content root).drop d).take (length v) := by
      rw [content, Span.content, List.drop_take, List.take_take, Nat.min_eq_left hadd]

end IsWindow

/-! ## Offsets out of range -/

/-- an offset that is not a natural in range cuts nothing -/
theorem takeSplit_refused {v : V} {offset : Number} (h : ∀ k : Nat, k ≤ length v → offset ≠ .ofNat k) :
    takeSplit v offset = .error (.offsetOutside offset (length v)) := by
  have hrefused : checkOffset v offset = .error (.offsetOutside offset (length v)) := by
    unfold checkOffset
    cases hk : offset.toNat? with
    | none => rfl
    | some k => exact if_neg fun hle => h k hle (Number.toNat?_eq_some hk)
  rw [takeSplit, hrefused]
  rfl

/-- taking is the front half of splitting, and stopped where splitting is -/
theorem takeTo_eq (v : V) (offset : Number) : takeTo v offset = (takeSplit v offset).map Prod.snd := by
  rw [takeTo, takeSplit]
  cases checkOffset v offset with
  | error fault => rfl
  | ok k => rfl

/-! ## Cutting twice -/

/-- the rest of a cut at `a` and then at `b` is, up to `R`, that of a cut at their sum -/
def RestsCompose (R : V → V → Prop) (v : V) (a b : Nat) : Prop :=
  ∀ rest front rest' front', takeSplit v (.ofNat a) = .ok (rest, front) →
    takeSplit rest (.ofNat b) = .ok (rest', front') →
    ∃ last consumed, takeSplit v (.ofNat (a + b)) = .ok (last, consumed) ∧ R rest' last

theorem takeSplit_ofNat_eq_ok {v rest front : V} {k : Nat} (h : takeSplit v (.ofNat k) = .ok (rest, front)) :
    k ≤ length v ∧ rest = View.drop v k ∧ front = View.take v k := by
  obtain ⟨n, hn, hle, hrest, hfront⟩ := takeSplit_eq_ok.1 h
  obtain rfl : k = n := Option.some.inj ((Number.toNat?_ofNat k).symm.trans hn)
  exact ⟨hle, hrest, hfront⟩

/-- it is enough to compare what is dropped in two steps with what is dropped in one -/
theorem restsCompose_of_drop {R : V → V → Prop} {v : V} {a b : Nat}
    (h : a + b ≤ length v → R (View.drop (View.drop v a) b) (View.drop v (a + b))) : RestsCompose R v a b := by
  intro rest front rest' front' hfirst hsecond
  obtain ⟨ha, rfl, -⟩ := takeSplit_ofNat_eq_ok hfirst
  obtain ⟨hb, rfl, -⟩ := takeSplit_ofNat_eq_ok hsecond
  rw [length_drop] at hb
  have hsum : a + b ≤ length v := by omega
  exact ⟨_, _, takeSplit_ofNat v (a + b) hsum, h hsum⟩

theorem span_drop_drop (v : V) (a b : Nat) : span (View.drop (View.drop v a) b) = span (View.drop v (a + b)) := by
  rw [span_drop, span_drop, span_drop]
  apply Span.eq_of_place
  · rfl
  · simp only [Span.start_drop, Span.length_drop]
    omega
  · rfl

theorem restsCompose_span (v : V) (a b : Nat) : RestsCompose (fun w w' => span w = span w') v a b :=
  restsCompose_of_drop fun _ => span_drop_drop v a b

end View

/-! ## Texts -/

theorem Text.restsCompose (v : Text) (a b : Nat) : View.RestsCompose Eq v a b := by
  apply View.restsCompose_of_drop
  intro _
  have hspan : (View.drop (View.drop v a) b : Text).toSpan = (View.drop v (a + b) : Text).toSpan :=
    View.span_drop_drop v a b
  exact congrArg Text.mk hspan

theorem Text.sameBase_of_isWindow {root v : Text} {d : Nat} (h : View.IsWindow root d v) :
    View.sameBase v root = true :=
  decide_eq_true h.base_eq

theorem Text.displacement_of_isWindow {root v : Text} {d : Nat} (h : View.IsWindow root d v) :
    View.displacement v root = some (d : Int) := by
  have hstart : v.start = root.start + d := h.start_eq
  rw [View.displacement_of_ofInt (i := v.start) (j := root.start) rfl rfl, hstart]
  congr 1
  omega

/-! ## Octets -/

theorem View.inReach_iff {V κ ω : Type} [Position ω] [View V κ ω] {v : V} {o : Int} (h : View.offsetNumber v = .ofInt o)
    (k : Nat) : View.InReach v k ↔ (o + k).natAbs ≤ 2 ^ 53 := by
  constructor
  · rintro ⟨i, hi, hreach⟩
    have heq := congrArg Number.toInt? (h.symm.trans hi)
    rw [Number.toInt?_ofInt, Number.toInt?_ofInt] at heq
    rwa [Option.some.inj heq]
  · intro hreach
    exact ⟨o, h, hreach⟩

namespace Bytes

theorem sameBase_of_isWindow {root v : Bytes} {d : Nat} (h : View.IsWindow root d v)
    (hbuffer : v.buffer = root.buffer) : View.sameBase v root = true := by
  have hbase : v.base = root.base := h.base_eq
  simp [View.sameBase, hbuffer, hbase]

/-- the rest lies where it should, if that place is in reach -/
theorem offset_drop_exact {v : Bytes} {o : Int} {d k : Nat} (hv : v.offset = .ofInt (o + d)) (hk : k ≤ View.length v)
    (hreach : (o + (d + k : Nat)).natAbs ≤ 2 ^ 53) :
    (View.drop v k : Bytes).offset = .ofInt (o + (d + k : Nat)) := by
  have hmove : (View.drop v k : Bytes).offset = v.offset.add (.ofNat k) := View.offset_drop v k hk
  have hsum : o + d + k = o + (d + k : Nat) := by omega
  rw [hmove, hv, Number.add_ofNat (by rwa [hsum]), hsum]

/-- the same place, reached in one step and in two: from a safe position, what lies before a place in reach is in reach
as well -/
theorem restsCompose {v : Bytes} {o : Int} {d a b : Nat} (hsafe : o.natAbs < 2 ^ 53) (hv : v.offset = .ofInt (o + d))
    (hreach : (o + (d + a + b : Nat)).natAbs ≤ 2 ^ 53) : View.RestsCompose Eq v a b := by
  apply View.restsCompose_of_drop
  intro hle
  have ha : a ≤ View.length v := by omega
  have hb : b ≤ View.length (View.drop v a) := by
    rw [View.length_drop]
    omega
  have hfirst : (View.drop v a : Bytes).offset = .ofInt (o + (d + a : Nat)) :=
    offset_drop_exact hv ha (by omega)
  have htwice := offset_drop_exact hfirst hb hreach
  have honce := offset_drop_exact hv hle (by rwa [← Nat.add_assoc])
  rw [← Nat.add_assoc] at honce
  have hspan : (View.drop (View.drop v a) b : Bytes).toSpan = (View.drop v (a + b) : Bytes).toSpan :=
    View.span_drop_drop v a b
  have hoffset : (View.drop (View.drop v a) b : Bytes).offset = (View.drop v (a + b) : Bytes).offset :=
    htwice.trans honce.symm
  have heta : ∀ w : Bytes, w = ⟨w.toSpan, w.buffer, w.offset⟩ := fun _ => rfl
  rw [heta (View.drop (View.drop v a) b), hspan, hoffset]
  rfl

end Bytes

end SliceParser
