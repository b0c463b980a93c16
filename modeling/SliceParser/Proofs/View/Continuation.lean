/-
MORE INPUT behind a view: what was found in the view is found again when more follows it.

- `Continues`: a view at the position of another, which shows what that shows and then more. Texts and octets have one
  for whatever may follow (`Text.exists_continues`, `Bytes.exists_continues`).
- `Continues.take`, `Continues.drop`: a cut inside the view has the same in front in both, and behind it the rest
  continued.
- `Continues.compare`, `Continues.compareNoCase`, `Continues.findSubstring`: a literal that matched matches still, and
  the needle that was found is found at the same place. The units alone decide this.
- `ReadsOn`: what follows is read as elements of its own, behind those of the view. Octets always are, and units of text
  unless a pair is made of the last one and the next (`Text.readsOn`, `Bytes.readsOn`).
- `runEnd_of_lt`, `sliceIndex_of_some`: **a run that ended inside the view ends at the same place, and so do elements
  that were counted off.**
-/
import SliceParser.Proofs.View.CaseAside
import SliceParser.Proofs.View.Rereading

namespace SliceParser

namespace View

variable {V κ α ω : Type} [Position ω] [View V κ ω]

/-- `longer` lies where `v` lies, and shows what `v` shows and then `more` -/
structure Continues (v : V) (more : List κ) (longer : V) : Prop where
  content_eq : content longer = content v ++ more
  offset_eq : offset longer = offset v

variable {v longer : V} {more : List κ} {k : Nat}

namespace Continues

theorem length_eq (h : Continues v more longer) : length longer = length v + more.length := by
  rw [← length_content, h.content_eq, List.length_append, length_content]

theorem length_le (h : Continues v more longer) : length v ≤ length longer := by
  rw [h.length_eq]
  exact Nat.le_add_right _ _

/-- in front of a cut nothing is added -/
theorem take (h : Continues v more longer) (hk : k ≤ length v) : Continues (take v k) [] (take longer k) where
  content_eq := by
    rw [content_take, content_take, h.content_eq, List.append_nil]
    exact List.take_append_of_le_length (by rwa [length_content])
  offset_eq := by rw [offset_take, offset_take, h.offset_eq]

/-- behind a cut the rest is continued -/
theorem drop (h : Continues v more longer) (hk : k ≤ length v) : Continues (drop v k) more (drop longer k) where
  content_eq := by
    rw [content_drop, content_drop, h.content_eq]
    exact List.drop_append_of_le_length (by rwa [length_content])
  offset_eq := by rw [offset_drop v k hk, offset_drop longer k (hk.trans h.length_le), h.offset_eq]

/-! ## Literals and needles -/

variable {literal needle : V}

/-- where there is room for the needle in the view, it occurs in both or in neither -/
theorem occursAt_iff (h : Continues v more longer) (hroom : k + length needle ≤ length v) :
    OccursAt longer needle k ↔ OccursAt v needle k := by
  have hk : k ≤ length v := by omega
  have hcontent : (content longer).drop k = (content v).drop k ++ more := by
    have := (h.drop hk).content_eq
    rwa [content_drop, content_drop] at this
  rw [OccursAt, OccursAt, hcontent]
  refine and_congr (iff_of_true (hk.trans h.length_le) hk) ?_
  constructor
  · intro hpre
    refine List.prefix_of_prefix_length_le hpre (List.prefix_append _ _) ?_
    rw [length_content, List.length_drop, length_content]
    omega
  · intro hpre
    exact hpre.trans (List.prefix_append _ _)

section

variable [DecidableEq κ]

theorem compare (h : Continues v more longer) (hok : View.compare v literal = .ok) :
    View.compare longer literal = .ok := by
  have hdecided : compareUnits (content v) (content literal) ≠ .incomplete := by
    rw [← View.compare, hok]
    decide
  rw [View.compare, h.content_eq, compareUnits_append hdecided]
  exact hok

theorem compareNoCase [Alphabet κ α] (h : Continues v more longer) (hok : View.compareNoCase v literal = .ok) :
    View.compareNoCase longer literal = .ok := by
  have hdecided : compareFolded (content v) (Alphabet.segment (content literal)) ≠ .incomplete := by
    rw [← View.compareNoCase, hok]
    decide
  rw [View.compareNoCase, h.content_eq, compareFolded_append hdecided]
  exact hok

/-- no earlier occurrence comes up: it would have to begin and end in front of the one that was found -/
theorem findSubstring (h : Continues v more longer) (hfound : View.findSubstring v needle = some k) :
    View.findSubstring longer needle = some k := by
  obtain ⟨hoccurs, hleast⟩ := findSubstring_eq_some_iff.1 hfound
  have hroom : k + length needle ≤ length v := by
    have hle := hoccurs.2.length_le
    rw [length_content, List.length_drop, length_content] at hle
    have := hoccurs.1
    omega
  refine findSubstring_eq_some_iff.2 ⟨(h.occursAt_iff hroom).2 hoccurs, ?_⟩
  intro j hj hearlier
  exact hleast j hj ((h.occursAt_iff (by omega)).1 hearlier)

end

end Continues

/-! ## Elements -/

variable [Alphabet κ α]

/-- what follows the view is read behind its elements, as elements of its own -/
def ReadsOn (v : V) (more : List κ) : Prop :=
  (Alphabet.segment (content v ++ more) : List α) = members v ++ Alphabet.segment more

variable {p : α → Bool} {n : Nat}

theorem members_of_continues (h : Continues v more longer) (hreads : ReadsOn v more) :
    (members longer : List α) = members v ++ Alphabet.segment more := by
  rw [members, h.content_eq]
  exact hreads

/-- a run that did not reach the end of the view was ended by an element -/
theorem runEnd_of_lt (h : Continues v more longer) (hreads : ReadsOn v more) (hlt : runEnd v p < length v) :
    runEnd longer p = runEnd v p := by
  have hstopped : ((members v).takeWhile fun e => !p e).length ≠ (members v).length := by
    intro hall
    have hrun : ((members v).takeWhile fun e => !p e) = members v := (List.takeWhile_prefix _).eq_of_length hall
    rw [runEnd_eq, hrun, extent_members] at hlt
    exact absurd hlt (Nat.lt_irrefl _)
  rw [runEnd_eq, runEnd_eq, members_of_continues h hreads, List.takeWhile_append, if_neg hstopped]

theorem sliceIndex_of_some (h : Continues v more longer) (hreads : ReadsOn v more) (hsome : sliceIndex v n = some k) :
    sliceIndex longer n = some k := by
  rw [sliceIndex_eq] at hsome
  split_ifs at hsome with hn
  rw [sliceIndex_eq, members_of_continues h hreads, List.take_append_of_le_length hn, if_pos ?_]
  · exact hsome
  · rw [List.length_append]
    exact hn.trans (Nat.le_add_right _ _)

end View

/-! ## Texts and octets -/

/-- a text goes on as itself, on a source of its own -/
theorem Text.exists_continues (v : Text) (more : Units) : ∃ longer : Text, View.Continues v more longer := by
  have hfront : (v.base.take v.start).length = v.start :=
    List.length_take_of_le (v.start_le_stop.trans v.stop_le_length)
  let shown := View.content v ++ more
  have hlength : (v.base.take v.start ++ shown).length = v.start + shown.length := by
    rw [List.length_append, hfront]
  refine ⟨⟨⟨v.base.take v.start ++ shown, v.start, v.start + shown.length, Nat.le_add_right _ _, hlength.ge⟩⟩, ?_, rfl⟩
  change ((v.base.take v.start ++ shown).drop v.start).take (v.start + shown.length - v.start) = shown
  rw [List.drop_left' hfront, Nat.add_sub_cancel_left, List.take_length]

theorem Bytes.exists_continues (v : Bytes) (more : List UInt8) : ∃ longer : Bytes, View.Continues v more longer :=
  ⟨.ofOctets (View.content v ++ more) v.buffer v.offset, Span.content_whole _, rfl⟩

theorem Text.readsOn {v : Text} {more : Units} (h : ¬ Units.Torn (View.content v) more) : View.ReadsOn v more :=
  segment_append h

theorem Bytes.readsOn (v : Bytes) (more : List UInt8) : View.ReadsOn v more := rfl

end SliceParser
