/-
TEXTS AND OCTETS AGREE ON ASCII: every primitive, built for either class of views with arguments that correspond, has
the same outcome on equal cuts of a string and of its octets.

- `EncodesAscii`: a byte view holds the octets of a text view that is ASCII. Whatever can be asked of the one has the
  answer of the other: where runs end (`runEnd_eq`), where counts lead (`sliceIndex_eq`), whether a literal matches
  with case aside (`compareNoCase_eq_ok`). Literals and needles agree as they do in all encoded texts
  (`eq_of_sameBoundary`).
- `Corresponding`: the same primitive for either class, with ASCII literals, sets and needles, equal counts, and
  predicates on codes.
- `matched?_corresponding`: **corresponding primitives match as many units as octets.** One of them can be made exactly
  when the other can (`build_corresponding`).
- `EqualCuts`: what cuts at the same offsets, one after the other, leave of a string and of its octets.
- `views_agree_on_ascii`: **the runs agree, and what they leave and match are equal cuts again**, of the same length
  and at the same position.
-/
import SliceParser.Proofs.Primitive.Encoded
import SliceParser.Proofs.Unicode.Ascii
import SliceParser.Proofs.View.Cut

namespace SliceParser

/-! ## An ASCII text and its octets -/

/-- the octets of an ASCII text -/
structure EncodesAscii (v : Text) (w : Bytes) : Prop where
  ascii : Units.IsAscii (View.content v)
  content_eq : View.content w = Utf8.encode (View.content v)

theorem encodesAscii_whole {t : Units} (h : t.IsAscii) (buffer : Nat) (offset : Number) :
    EncodesAscii (.ofUnits t) (.ofOctets (Utf8.encode t) buffer offset) := by
  have htext : View.content (Text.ofUnits t) = t := Span.content_whole t
  exact ⟨by rwa [htext], (encodes_whole h.wellFormed buffer offset).content_eq⟩

namespace EncodesAscii

variable {v literal : Text} {w literal' : Bytes}

theorem encodes (h : EncodesAscii v w) : Encodes v w :=
  ⟨h.ascii.wellFormed, h.content_eq⟩

theorem of_content {us : Units} (hus : us.IsAscii) (hv : View.content v = us)
    (hw : View.content w = us.map UInt16.toUInt8) : EncodesAscii v w :=
  ⟨by rwa [hv], by rw [hv, hw, encode_ascii hus]⟩

theorem members_text (h : EncodesAscii v w) : View.members v = (View.content v).map Element.unit :=
  segment_ascii h.ascii

theorem content_bytes (h : EncodesAscii v w) : View.content w = (View.content v).map UInt16.toUInt8 := by
  rw [h.content_eq, encode_ascii h.ascii]

theorem length_eq (h : EncodesAscii v w) : View.length v = View.length w := by
  rw [← View.length_content, ← View.length_content, h.content_bytes, List.length_map]

theorem drop (h : EncodesAscii v w) (k : Nat) : EncodesAscii (View.drop v k) (View.drop w k) := by
  apply of_content fun u hu => h.ascii u (List.mem_of_mem_drop hu)
  · exact View.content_drop v k
  · rw [View.content_drop, h.content_bytes, List.map_drop]

theorem take (h : EncodesAscii v w) (k : Nat) : EncodesAscii (View.take v k) (View.take w k) := by
  apply of_content fun u hu => h.ascii u (List.mem_of_mem_take hu)
  · exact View.content_take v k
  · rw [View.content_take, h.content_bytes, List.map_take]

theorem length_members (h : EncodesAscii v w) : (View.members v).length = (View.members w : List UInt8).length := by
  change (View.members v).length = (View.content w).length
  rw [h.members_text, h.content_bytes, List.length_map, List.length_map]

/-- each element takes one unit, and one octet -/
theorem length_units (h : EncodesAscii v w) :
    ∀ e ∈ segment (View.content v), e.units.length = 1 ∧ (Utf8.encodeElement e).length = 1 := by
  rw [segment_ascii h.ascii]
  intro e he
  obtain ⟨u, hu, rfl⟩ := List.mem_map.1 he
  exact ⟨rfl, by rw [encodeElement_ascii (h.ascii u hu)]; rfl⟩

theorem eq_of_sameBoundary (h : EncodesAscii v w) {k k' : Nat} (hk : SameBoundary v k k') : k = k' := by
  obtain ⟨front, hpre, rfl, rfl⟩ := hk
  rw [extent_eq_length _ fun e he => (h.length_units e (hpre.subset he)).1,
    extent_eq_length _ fun e he => (h.length_units e (hpre.subset he)).2]

/-- what is found behind the same elements is found at the same offset -/
theorem eq_of_rel (h : EncodesAscii v w) {offset? offset?' : Option Nat}
    (hrel : Option.Rel (SameBoundary v) offset? offset?') : offset? = offset?' := by
  cases hrel with
  | some hk => rw [h.eq_of_sameBoundary hk]
  | none => rfl

/-! ## Elements -/

theorem length_takeWhile_ascii {us : Units} (h : us.IsAscii) {p : Element → Bool} {p' : UInt8 → Bool}
    (hp : ∀ u : UInt16, u.toNat < 0x80 → p (.unit u) = p' u.toUInt8) :
    ((us.map Element.unit).takeWhile p).length = ((us.map UInt16.toUInt8).takeWhile p').length := by
  induction us with
  | nil => rfl
  | cons u us ih =>
    rw [List.map_cons, List.map_cons, List.takeWhile_cons, List.takeWhile_cons, hp u h.head]
    split_ifs
    · rw [List.length_cons, List.length_cons, ih h.tail]
    · rfl

/-- **Runs end at the same offset** if the predicates agree on ASCII. -/
theorem runEnd_eq (h : EncodesAscii v w) (p : Element → Bool) (p' : UInt8 → Bool)
    (hp : ∀ u : UInt16, u.toNat < 0x80 → p (.unit u) = p' u.toUInt8) : View.runEnd v p = View.runEnd w p' := by
  have hnot : ∀ u : UInt16, u.toNat < 0x80 → (!p (.unit u)) = !p' u.toUInt8 := fun u hu => by rw [hp u hu]
  have htext : ∀ e ∈ (View.members v).takeWhile fun e => !p e, e.units.length = 1 :=
    fun e he => (h.length_units e ((List.takeWhile_prefix _).subset he)).1
  rw [View.runEnd_eq, View.runEnd_eq]
  calc extent Element.units ((View.members v).takeWhile fun e => !p e)
      = ((View.members v).takeWhile fun e => !p e).length := extent_eq_length _ htext
    _ = ((View.content w).takeWhile fun b => !p' b).length := by
        rw [h.members_text, h.content_bytes]
        exact length_takeWhile_ascii h.ascii hnot
    _ = extent (fun b => [b]) ((View.content w).takeWhile fun b => !p' b) :=
        (extent_eq_length _ fun _ _ => rfl).symm

/-- **Counts lead to the same offset.** -/
theorem sliceIndex_eq (h : EncodesAscii v w) (count : Nat) : View.sliceIndex v count = View.sliceIndex w count := by
  have htext : ∀ e ∈ (View.members v).take count, e.units.length = 1 :=
    fun e he => (h.length_units e ((List.take_prefix _ _).subset he)).1
  have hoctets : ∀ b ∈ (View.members w : List UInt8).take count, (Alphabet.units b : List UInt8).length = 1 :=
    fun _ _ => rfl
  rw [View.sliceIndex_eq, View.sliceIndex_eq, h.length_members]
  change (if _ then some (extent Element.units _) else none) = _
  rw [extent_eq_length _ htext, extent_eq_length _ hoctets, List.length_take, List.length_take, h.length_members]

/-- an element is in a set of ASCII elements exactly when its octet is in the set of their octets -/
theorem contains_eq (h : EncodesAscii v w) {u : UInt16} (hu : u.toNat < 0x80) :
    (View.members v).contains (.unit u) = (View.members w : List UInt8).contains u.toUInt8 := by
  have hoctets : (View.members w : List UInt8) = (View.content v).map UInt16.toUInt8 := h.content_bytes
  rw [Bool.eq_iff_iff, List.contains_iff_mem, List.contains_iff_mem, h.members_text, hoctets, List.mem_map, List.mem_map]
  constructor
  · rintro ⟨u', hmem, heq⟩
    obtain rfl := Element.unit.inj heq
    exact ⟨u', hmem, rfl⟩
  · rintro ⟨u', hmem, heq⟩
    obtain rfl := (toUInt8_inj (h.ascii u' hmem) hu).1 heq
    exact ⟨u', hmem, rfl⟩

/-! ## Literals -/

theorem compareFolded_ascii {us ws : Units} (hus : us.IsAscii) (hws : ws.IsAscii) :
    View.compareFolded us (ws.map Element.unit) = .ok ↔
      View.compareFolded (us.map UInt16.toUInt8) (ws.map UInt16.toUInt8) = .ok := by
  induction ws generalizing us with
  | nil => simp [View.compareFolded]
  | cons w ws ih =>
    rw [List.map_cons, List.map_cons, View.compareFolded_cons_ok, View.compareFolded_cons_ok]
    cases us with
    | nil => simp [Alphabet.units, Element.units]
    | cons u us =>
      -- one unit against one unit, and one octet against one octet
      have hfold : LowerCase.lower [u] = LowerCase.lower [w] ↔
          [u.toUInt8].map asciiLower = [w.toUInt8].map asciiLower := by
        rw [LowerCase.lower_eq_iff hus.head hws.head, List.map_singleton, List.map_singleton, List.singleton_inj]
      have hlength : 1 ≤ (u :: us).length ↔ 1 ≤ ((u :: us).map UInt16.toUInt8).length := by rw [List.length_map]
      exact and_congr hlength (and_congr hfold (ih hus.tail hws.tail))

/-- **A literal matches with case aside exactly when its octets do**: full case mapping and the one of ASCII fold the
same units together. -/
theorem compareNoCase_eq_ok (h : EncodesAscii v w) (hliteral : EncodesAscii literal literal') :
    View.compareNoCase v literal = .ok ↔ View.compareNoCase w literal' = .ok := by
  have htext : View.compareNoCase v literal = View.compareFolded (View.content v) (View.members literal) := rfl
  have hoctets : View.compareNoCase w literal' = View.compareFolded (View.content w) (View.content literal') := rfl
  rw [htext, hoctets, hliteral.members_text, hliteral.content_bytes, h.content_bytes]
  exact compareFolded_ascii h.ascii hliteral.ascii

end EncodesAscii

/-! ## Corresponding primitives -/

namespace Primitive

/-- the same primitive for texts and for octets: ASCII literals, sets and needles with their octets, the same counts,
and the same predicate on codes -/
inductive Corresponding : Primitive Text Element → Primitive Bytes UInt8 → Prop
  | tag {literal : Text} {literal' : Bytes} : EncodesAscii literal literal' →
      Corresponding (.tag literal) (.tag literal')
  | tagNoCase {literal : Text} {literal' : Bytes} : EncodesAscii literal literal' →
      Corresponding (.tagNoCase literal) (.tagNoCase literal')
  | isA {set : Text} {set' : Bytes} : EncodesAscii set set' → Corresponding (.isA set) (.isA set')
  | isNot {set : Text} {set' : Bytes} : EncodesAscii set set' → Corresponding (.isNot set) (.isNot set')
  | takeWhile (p : Nat → Bool) : Corresponding (.takeWhile fun e => p e.code) (.takeWhile fun b => p b.toNat)
  | takeWhile1 (p : Nat → Bool) : Corresponding (.takeWhile1 fun e => p e.code) (.takeWhile1 fun b => p b.toNat)
  | takeWhileMN (least most : Number) (p : Nat → Bool) :
      Corresponding (.takeWhileMN least most fun e => p e.code) (.takeWhileMN least most fun b => p b.toNat)
  | takeTill (p : Nat → Bool) : Corresponding (.takeTill fun e => p e.code) (.takeTill fun b => p b.toNat)
  | takeTill1 (p : Nat → Bool) : Corresponding (.takeTill1 fun e => p e.code) (.takeTill1 fun b => p b.toNat)
  | take (count : Number) : Corresponding (.take count) (.take count)
  | takeUntil {needle : Text} {needle' : Bytes} : EncodesAscii needle needle' →
      Corresponding (.takeUntil needle) (.takeUntil needle')

variable {primitive : Primitive Text Element} {primitive' : Primitive Bytes UInt8}

theorem kind?_corresponding (h : Corresponding primitive primitive') : primitive.kind? = primitive'.kind? := by
  cases h <;> rfl

/-- one is refused exactly when the other is, and for the same reason -/
theorem build_corresponding {E F : Type} (h : Corresponding primitive primitive') (errors : ErrorStrategy Text E)
    (errors' : ErrorStrategy Bytes F) (fault : Fault) :
    primitive.build errors = .error fault ↔ primitive'.build errors' = .error fault := by
  cases h with
  | takeWhileMN least most p =>
    simp only [build, Parser.takeWhileMN, bind, Except.bind, pure, Except.pure]
    cases least.toCount with
    | error => simp only [Except.error.injEq]
    | ok m =>
      cases most.toCount with
      | error => simp only [Except.error.injEq]
      | ok n =>
        by_cases hlt : n < m
        · simp only [if_pos hlt]
          simp only [throw, throwThe, MonadExceptOf.throw, Except.error.injEq]
        · simp only [if_neg hlt, reduceCtorEq]
  | take count =>
    simp only [build, Parser.take, bind, Except.bind, pure, Except.pure]
    cases count.toCount with
    | error => simp only [Except.error.injEq]
    | ok n => simp only [reduceCtorEq]
  | _ => simp only [build, reduceCtorEq]

/-- **Corresponding primitives match as many units of an ASCII text as octets.** -/
theorem matched?_corresponding (h : Corresponding primitive primitive') {v : Text} {w : Bytes}
    (hv : EncodesAscii v w) : primitive.matched? v = primitive'.matched? w := by
  have hcode : ∀ p : Nat → Bool, View.runEnd v (fun e => p e.code) = View.runEnd w (fun b => p b.toNat) := fun p =>
    hv.runEnd_eq _ _ fun u hu => by rw [toNat_toUInt8 hu, Element.code_unit]
  have hnot : ∀ p : Nat → Bool, View.runEnd v (fun e => !p e.code) = View.runEnd w (fun b => !p b.toNat) := fun p =>
    hcode fun c => !p c
  cases h with
  | tag hliteral => exact hv.eq_of_rel (hv.encodes.tag_matched? hliteral.encodes)
  | tagNoCase hliteral => simp only [matched?, hv.compareNoCase_eq_ok hliteral, hliteral.length_eq]
  | isA hset =>
    rw [matched?, matched?]
    exact congrArg nonempty (hv.runEnd_eq _ _ fun u hu => by rw [hset.contains_eq hu])
  | isNot hset =>
    rw [matched?, matched?]
    exact congrArg nonempty (hv.runEnd_eq _ _ fun u hu => hset.contains_eq hu)
  | takeWhile p => rw [matched?, matched?, hnot]
  | takeWhile1 p => rw [matched?, matched?, hnot]
  | takeWhileMN least most p => simp only [matched?, hnot, hv.sliceIndex_eq]
  | takeTill p => rw [matched?, matched?, hcode]
  | takeTill1 p => rw [matched?, matched?, hcode]
  | take count => simp only [matched?, hv.sliceIndex_eq]
  | takeUntil hneedle => exact hv.eq_of_rel (hv.encodes.takeUntil_matched? hneedle.encodes)

end Primitive

/-! ## Equal cuts -/

/-- a string and its octets, each cut as often as the other and at the same offsets, and the same side kept -/
inductive EqualCuts (s : Units) (buffer : Nat) : Text → Bytes → Prop
  | whole : EqualCuts s buffer (.ofUnits s) (.ofOctets (Utf8.encode s) buffer (.ofNat 0))
  | rest {v rest value : Text} {w rest' value' : Bytes} (offset : Number) : EqualCuts s buffer v w →
      View.takeSplit v offset = .ok (rest, value) → View.takeSplit w offset = .ok (rest', value') →
      EqualCuts s buffer rest rest'
  | value {v rest value : Text} {w rest' value' : Bytes} (offset : Number) : EqualCuts s buffer v w →
      View.takeSplit v offset = .ok (rest, value) → View.takeSplit w offset = .ok (rest', value') →
      EqualCuts s buffer value value'

/-- the same length, and the same position while positions are exact numbers; no string is so long that they are not -/
structure SamePlace (s : Units) (v : Text) (w : Bytes) : Prop where
  length_eq : View.length v = View.length w
  offset_eq : s.length ≤ 2 ^ 53 → View.offsetNumber v = View.offsetNumber w

/-- what every pair of equal cuts of an ASCII string is: one content, and one position -/
structure AsciiCut (s : Units) (v : Text) (w : Bytes) : Prop extends EncodesAscii v w where
  base_eq : v.base = s
  offset_eq : s.length ≤ 2 ^ 53 → w.offset = .ofNat v.start

namespace AsciiCut

variable {s : Units} {v : Text} {w : Bytes}

theorem samePlace (h : AsciiCut s v w) : SamePlace s v w :=
  ⟨h.length_eq, fun hs => (h.offset_eq hs).symm⟩

theorem whole {buffer : Nat} (hs : s.IsAscii) :
    AsciiCut s (.ofUnits s) (.ofOctets (Utf8.encode s) buffer (.ofNat 0)) where
  toEncodesAscii := encodesAscii_whole hs buffer (.ofNat 0)
  base_eq := rfl
  offset_eq _ := rfl

theorem drop (h : AsciiCut s v w) {k : Nat} (hk : k ≤ View.length v) :
    AsciiCut s (View.drop v k) (View.drop w k) where
  toEncodesAscii := h.toEncodesAscii.drop k
  base_eq := h.base_eq
  offset_eq hs := by
    -- the rest begins inside the string, where sums are exact
    have hstart : (View.drop v k).start = v.start + k := View.offset_drop v k hk
    have hinside : v.start + k ≤ s.length := by
      rw [← hstart, ← h.base_eq]
      exact (View.drop v k).start_le_stop.trans (View.drop v k).stop_le_length
    have hcut := View.isCut w (h.length_eq ▸ hk)
    rw [hstart]
    exact Bytes.offset_rest_exact hcut (h.offset_eq hs) (by omega)

theorem take (h : AsciiCut s v w) (k : Nat) : AsciiCut s (View.take v k) (View.take w k) where
  toEncodesAscii := h.toEncodesAscii.take k
  base_eq := h.base_eq
  offset_eq hs := h.offset_eq hs

end AsciiCut

theorem EqualCuts.asciiCut {s : Units} (hs : s.IsAscii) {buffer : Nat} {v : Text} {w : Bytes}
    (h : EqualCuts s buffer v w) : AsciiCut s v w := by
  induction h with
  | whole => exact .whole hs
  | rest offset _ htext hoctets ih =>
    obtain ⟨k, hk, hle, rfl, -⟩ := View.takeSplit_eq_ok.1 htext
    obtain ⟨k', hk', -, rfl, -⟩ := View.takeSplit_eq_ok.1 hoctets
    obtain rfl := Option.some.inj (hk.symm.trans hk')
    exact ih.drop hle
  | value offset _ htext hoctets ih =>
    obtain ⟨k, hk, -, -, rfl⟩ := View.takeSplit_eq_ok.1 htext
    obtain ⟨k', hk', -, -, rfl⟩ := View.takeSplit_eq_ok.1 hoctets
    obtain rfl := Option.some.inj (hk.symm.trans hk')
    exact ih.take k

open Primitive

/-- **Texts and octets agree on ASCII.** Of two corresponding primitives one is refused exactly when the other is, and
otherwise their runs on equal cuts both succeed or both fail, whatever the strategies. What they leave and what they
match are equal cuts again, of the same length and at the same position. -/
theorem views_agree_on_ascii {E F : Type} (errors : ErrorStrategy Text E) (errors' : ErrorStrategy Bytes F)
    {primitive : Primitive Text Element} {primitive' : Primitive Bytes UInt8}
    (hcorresponding : Corresponding primitive primitive') :
    (∀ fault, primitive.build errors = .error fault ↔ primitive'.build errors' = .error fault) ∧
    ∀ parser parser', primitive.build errors = .ok parser → primitive'.build errors' = .ok parser' →
      ∀ s : Units, s.IsAscii → ∀ buffer v w, EqualCuts s buffer v w →
        Agree (fun v w => EqualCuts s buffer v w ∧ SamePlace s v w) errors errors' v w (parser v) (parser' w) := by
  constructor
  · exact build_corresponding hcorresponding errors errors'
  · intro parser parser' hbuild hbuild' s hs buffer v w hcuts
    have hcut : AsciiCut s v w := hcuts.asciiCut hs
    have hmatched : Option.Rel (fun k k' => k = k' ∧ k ≤ View.length v) (primitive.matched? v)
        (primitive'.matched? w) := by
      rw [← matched?_corresponding hcorresponding hcut.toEncodesAscii]
      cases hk : primitive.matched? v with
      | none => exact .none
      | some k => exact .some ⟨rfl, matched?_le hk⟩
    refine build_agree hbuild hbuild' (kind?_corresponding hcorresponding) hmatched ?_
    rintro k _ ⟨rfl, hle⟩
    have htext := View.takeSplit_ofNat v k hle
    have hoctets := View.takeSplit_ofNat w k (hcut.length_eq ▸ hle)
    exact ⟨⟨.rest _ hcuts htext hoctets, (hcut.drop hle).samePlace⟩,
      ⟨.value _ hcuts htext hoctets, (hcut.take k).samePlace⟩⟩

/-- a literal in another case, on what a cut behind the first character leaves -/
theorem views_agree_behind_a_cut :
    let s : Units := [0x61, 0x4B, 0x65, 0x5D]
    let text : Text := View.drop (.ofUnits s) 1
    let octets : Bytes := View.drop (.ofOctets (Utf8.encode s) 0 (.ofNat 0)) 1
    let literal : Text := .ofUnits [0x6B, 0x45]
    let literal' : Bytes := .ofOctets (Utf8.encode [0x6B, 0x45]) 1 (.ofNat 0)
    Corresponding (.tagNoCase literal) (.tagNoCase literal') ∧ s.IsAscii ∧ EqualCuts s 0 text octets ∧
    Parser.tagNoCase literal .simple text = .ok (.success (View.drop text 2) (View.take text 2)) ∧
    Parser.tagNoCase literal' .unit octets = .ok (.success (View.drop octets 2) (View.take octets 2)) ∧
    EqualCuts s 0 (View.drop text 2) (View.drop octets 2) ∧ SamePlace s (View.drop text 2) (View.drop octets 2) ∧
    View.offsetNumber (View.drop text 2) = .ofNat 3 ∧ View.offsetNumber (View.drop octets 2) = .ofNat 3 := by
  intro s text octets literal literal'
  have hcorresponding : Corresponding (.tagNoCase literal) (.tagNoCase literal') :=
    .tagNoCase (encodesAscii_whole (by decide) 1 (.ofNat 0))
  have hs : s.IsAscii := by decide
  have hcuts : EqualCuts s 0 text octets :=
    .rest (.ofNat 1) .whole (View.takeSplit_ofNat _ 1 (by decide)) (View.takeSplit_ofNat _ 1 (by decide))
  have hcompare : View.compareNoCase text literal = .ok := by decide +kernel
  have htext : Parser.tagNoCase literal .simple text = .ok (.success (View.drop text 2) (View.take text 2)) := by
    simp only [Parser.tagNoCase, if_pos hcompare]
    exact Parser.cut_eq text 2 (by decide)
  have hoctets : Parser.tagNoCase literal' .unit octets =
      .ok (.success (View.drop octets 2) (View.take octets 2)) := rfl
  obtain ⟨-, hagree⟩ := views_agree_on_ascii .simple .unit hcorresponding
  obtain ⟨outcome, outcome', hrun, hrun', hverdict⟩ := hagree _ _ rfl rfl s hs 0 text octets hcuts
  obtain rfl := Except.ok.inj (hrun.symm.trans htext)
  obtain rfl := Except.ok.inj (hrun'.symm.trans hoctets)
  obtain ⟨⟨hrest, hplace⟩, -⟩ := hverdict
  have hoffset : View.offsetNumber (View.drop text 2) = .ofNat 3 := rfl
  exact ⟨hcorresponding, hs, hcuts, htext, hoctets, hrest, hplace, hoffset,
    (hplace.offset_eq (by decide)).symm.trans hoffset⟩

end SliceParser
