/-
PREVIEWS in traced lines: what they say of a view, and what a line says of its two previews.

- `Trace.shown`: what is shown of a text: all of it if it has at most so many elements, else the first of them and an
  ellipsis. `unquote?_preview`: **a preview is a quoted text that reads back to that.**
- `Trace.Previews`: a preview is cut where the view itself has its elements end (`previews_text`). A view of octets is
  shown as the text that it decodes to.
- `control_of_mem_line`: a control in a line for a success is one of the label, so the line is one line if the label is.
- `shown_of_line_eq`: two such lines with one label are the same only if what is shown of the rests is the same, and of
  the values too. Quotes and ellipses inside the previews cannot shift where a preview ends.
- `previews_are_faithful`: all of this, and that these lines are the ones that a traced parser writes.
-/
import SliceParser.Proofs.Json.Reading
import SliceParser.Proofs.Layer.Trace
import SliceParser.Proofs.View.Rereading
import SliceParser.Proofs.View.Window

namespace SliceParser

namespace Trace

/-! ## What is shown -/

/-- what a preview shows of a text -/
def shown (text : Units) (width : Nat) : Units :=
  if width < (segment text).length then ((segment text).take width).flatMap Element.units ++ .ofString "…" else text

theorem preview_eq (text : Units) (width : Nat) : preview text width = Json.quote (shown text width) := by
  unfold preview shown
  split_ifs with h <;> simp [h]

theorem unquote?_preview (text : Units) (width : Nat) : Json.unquote? (preview text width) = some (shown text width) := by
  rw [preview_eq, Json.unquote?_quote]

/-- a preview of a text reads back to the text, or to as much of it as the width allows -/
structure Previews (written : Units) (v : Text) (width : Nat) : Prop where
  whole : (View.elements v).length ≤ width → Json.unquote? written = some (View.text v)
  /-- a longer text is cut behind its first elements -/
  cut : width < (View.elements v).length → ∃ k front, View.sliceIndex v width = some k ∧
    View.takeTo v (.ofNat k) = .ok front ∧ Json.unquote? written = some (View.text front ++ .ofString "…")
  uncontrolled : ∀ u ∈ written, 0x20 ≤ u

theorem text_take_extent {v : Text} {es fs : List Element} (h : View.members v = es ++ fs) :
    View.text (View.take v (extent Element.units es)) = es.flatMap Element.units := by
  calc View.text (View.take v (extent Element.units es))
      = (View.content v).take (extent Element.units es) := View.content_take v _
    _ = es.flatMap Element.units := View.content_take_extent h

theorem previews_text (v : Text) (width : Nat) : Previews (preview (View.text v) width) v width where
  whole := by
    intro hwhole
    rw [View.length_elements] at hwhole
    have hall : shown (View.text v) width = View.text v := if_neg (Nat.not_lt.2 hwhole)
    rw [unquote?_preview, hall]
  cut := by
    intro hcut
    rw [View.length_elements] at hcut
    have hsome : shown (View.text v) width = ((View.members v).take width).flatMap Element.units ++ .ofString "…" :=
      if_pos hcut
    have hend : View.sliceIndex v width = some (extent Element.units ((View.members v).take width)) := by
      rw [View.sliceIndex_eq]
      exact if_pos hcut.le
    have hle := (View.sliceIndex_isBoundary hend).le_length
    refine ⟨_, _, hend, View.takeTo_eq_ok.2 ⟨hle, rfl⟩, ?_⟩
    rw [unquote?_preview, hsome, text_take_extent (List.take_append_drop width (View.members v)).symm]
  uncontrolled := by
    rw [preview_eq]
    exact Json.le_quote _

/-- octets are shown as the text that they decode to -/
theorem previews_bytes (v : Bytes) (width : Nat) :
    Previews (preview (View.text v) width) (.ofUnits (View.text v)) width := by
  have htext : View.text (Text.ofUnits (View.text v)) = View.text v := Span.content_whole _
  have h := previews_text (.ofUnits (View.text v)) width
  rwa [htext] at h

/-! ## Lines -/

variable {V O E V' O' E' : Type} [Shown V] [Shown O] [Shown V'] [Shown O']

/-- a control in a line is one of the label -/
theorem control_of_mem_line {label : Units} {width : Nat} {showError : E → Units} {rest : V} {value : O} {u : UInt16}
    (hu : u ∈ line label width showError (.success rest value)) (hcontrol : u < 0x20) : u ∈ label := by
  have hpreview : ∀ text, u ∉ preview text width := by
    intro text hmem
    rw [preview_eq] at hmem
    exact absurd hcontrol (UInt16.not_lt.2 (Json.le_quote _ u hmem))
  have hbetween : ∀ w ∈ Units.ofString ": ok rest=" ++ Units.ofString " value=", 0x20 ≤ w :=
    List.forall_iff_forall_mem.1 (by decide)
  simp only [line, List.mem_append] at hu
  rcases hu with (((hu | hu) | hu) | hu) | hu
  · exact hu
  · exact absurd hcontrol (UInt16.not_lt.2 (hbetween u (List.mem_append_left _ hu)))
  · exact absurd hu (hpreview _)
  · exact absurd hcontrol (UInt16.not_lt.2 (hbetween u (List.mem_append_right _ hu)))
  · exact absurd hu (hpreview _)

/-- **One line under one label shows one rest and one value.** -/
theorem shown_of_line_eq {label : Units} {width width' : Nat} {showError : E → Units} {showError' : E' → Units}
    {rest : V} {value : O} {rest' : V'} {value' : O'}
    (h : line label width showError (.success rest value) = line label width' showError' (.success rest' value')) :
    shown (Shown.text rest) width = shown (Shown.text rest') width' ∧
      shown (Shown.text value) width = shown (Shown.text value') width' := by
  simp only [line, List.append_assoc, List.append_cancel_left_eq, preview_eq] at h
  have hrest := congrArg Json.readQuoted? h
  rw [Json.readQuoted?_quote, Json.readQuoted?_quote, Option.some.injEq, Prod.mk.injEq, List.append_cancel_left_eq] at hrest
  have hvalue := congrArg Json.unquote? hrest.2
  rw [Json.unquote?_quote, Json.unquote?_quote] at hvalue
  exact ⟨hrest.1, Option.some.inj hvalue⟩

end Trace

theorem Config.Settings.traceWidth_pos (s : Settings) : 0 < s.traceWidth := by
  unfold traceWidth
  split
  · split <;> simp
  · decide

/-- **Previews are faithful, and so are the lines that they stand in.** The lines are those that a traced parser writes
for a success. -/
theorem previews_are_faithful :
    (∀ (v : Text) (width : Nat), Trace.Previews (Trace.preview (Shown.text v) width) v width) ∧
    (∀ (v : Bytes) (width : Nat),
      Trace.Previews (Trace.preview (Shown.text v) width) (.ofUnits (View.text v)) width) ∧
    (∀ {V O E : Type} [Shown V] [Shown O] (label : Units) (options : TraceOptions E) (parser : ParserT Traced V O E)
      (input : V) (session : Session) (rest : V) (value : O),
      (parser input).answer session = .ok (.success rest value) →
        let inner := (parser input).left session
        let width := inner.settings.traceWidth
        let line := Trace.line label width options.showError (.success rest value)
        0 < width ∧
        ((Parser.trace label options parser input).left session).lines =
          inner.lines ++ (if options.enabled.getD inner.settings.debugEnabled then [line] else []) ∧
        line = label ++ .ofString ": ok rest=" ++ Trace.preview (Shown.text rest) width ++ .ofString " value=" ++
          Trace.preview (Shown.text value) width) ∧
    (∀ {V O E : Type} [Shown V] [Shown O] (label : Units) (width : Nat) (showError : E → Units) (rest : V) (value : O),
      ∀ u ∈ Trace.line label width showError (.success rest value), u < 0x20 → u ∈ label) ∧
    (∀ {V O E V' O' E' : Type} [Shown V] [Shown O] [Shown V'] [Shown O'] (label : Units) (width width' : Nat)
      (showError : E → Units) (showError' : E' → Units) (rest : V) (value : O) (rest' : V') (value' : O'),
      Trace.line label width showError (.success rest value) =
          Trace.line label width' showError' (.success rest' value') →
        ∃ shownRest shownValue,
          Json.unquote? (Trace.preview (Shown.text rest) width) = some shownRest ∧
          Json.unquote? (Trace.preview (Shown.text rest') width') = some shownRest ∧
          Json.unquote? (Trace.preview (Shown.text value) width) = some shownValue ∧
          Json.unquote? (Trace.preview (Shown.text value') width') = some shownValue) := by
  refine ⟨Trace.previews_text, Trace.previews_bytes, ?_, ?_, ?_⟩
  · intro V O E _ _ label options parser input session rest value hanswer inner width line
    refine ⟨Config.Settings.traceWidth_pos _, ?_, rfl⟩
    rw [Traced.left_trace hanswer, Trace.trail]
    split_ifs with hoff hon hon
    · rw [hoff] at hon
      exact absurd hon Bool.false_ne_true
    · rw [List.append_nil]
    · rw [Trace.written, if_pos hon]
    · rw [Trace.written, if_neg hon]
  · intro V O E _ _ label width showError rest value u hu hcontrol
    exact Trace.control_of_mem_line hu hcontrol
  · intro V O E V' O' E' _ _ _ _ label width width' showError showError' rest value rest' value' hline
    obtain ⟨hrest, hvalue⟩ := Trace.shown_of_line_eq hline
    refine ⟨_, _, Trace.unquote?_preview _ _, ?_, Trace.unquote?_preview _ _, ?_⟩
    · rw [Trace.unquote?_preview, hrest]
    · rw [Trace.unquote?_preview, hvalue]

/-- behind the half of a pair that the window cuts, a quote, a backslash, a line break and a whole pair all read back;
the label has the only line break of the line; a text and octets share a line at different widths -/
theorem previews_read_back_at_cut_pair :
    let input : Text := ⟨⟨[0xD83D, 0xDE00, 0x22, 0x5C, 0x0A, 0xD83D, 0xDE01, 0x61], 1, 8, by decide, by decide⟩⟩
    let letters : Text := .ofUnits [0x61, 0x62]
    let octets : Bytes := .ofOctets [0x61, 0x62] 0 (.ofNat 0)
    let parser : ParserT Traced Text Text Unit := fun input => pure (.success (View.drop input 7) (View.take input 7))
    let session : Session := ⟨.initial [], []⟩
    let line := Trace.line [0x0A] 16 (fun _ => []) (.success (View.drop input 7) (View.take input 7) : Outcome _ _ Unit)
    View.sliceIndex input 5 = some 6 ∧
    Json.unquote? (Trace.preview (Shown.text input) 5) = some [0xDE00, 0x22, 0x5C, 0x0A, 0xD83D, 0xDE01, 0x2026] ∧
    Json.unquote? (Trace.preview (Shown.text octets) 2) = some [0x61, 0x62] ∧
    ((Parser.trace [0x0A] ⟨some true, fun _ => []⟩ parser input).left session).lines = [line] ∧
    0x0A ∈ line ∧ (0x0A : UInt16) ∈ [(0x0A : UInt16)] ∧
    Trace.line [] 2 (fun _ : Unit => []) (.success letters letters) =
      Trace.line [] 3 (fun _ : Unit => []) (.success octets octets) ∧
    ∃ shown, Json.unquote? (Trace.preview (Shown.text letters) 2) = some shown ∧
      Json.unquote? (Trace.preview (Shown.text octets) 3) = some shown := by
  intro input letters octets parser session line
  obtain ⟨htext, hbytes, hcall, hcontrol, hshared⟩ := previews_are_faithful
  have hend : View.sliceIndex input 5 = some 6 := by decide
  have hmember : 0x0A ∈ line := by decide +kernel
  have hline : Trace.line [] 2 (fun _ : Unit => []) (.success letters letters) =
      Trace.line [] 3 (fun _ : Unit => []) (.success octets octets) := by decide +kernel
  refine ⟨hend, ?_, (hbytes octets 2).whole (by decide +kernel), ?_, hmember, ?_, hline, ?_⟩
  · obtain ⟨k, front, hk, hfront, hread⟩ := (htext input 5).cut (by decide)
    obtain rfl : 6 = k := Option.some.inj (hend.symm.trans hk)
    obtain ⟨-, rfl⟩ := View.takeTo_eq_ok.1 hfront
    exact hread
  · exact (hcall [0x0A] ⟨some true, fun _ => []⟩ parser input session _ _ rfl).2.1
  · exact hcontrol [0x0A] 16 (fun _ => []) _ _ 0x0A hmember (by decide)
  · obtain ⟨shown, -, htext, hoctets, -⟩ := hshared [] 2 3 _ _ letters letters octets octets hline
    exact ⟨shown, htext, hoctets⟩

end SliceParser
