/-
CONTENT DECIDES: two runs of a primitive on inputs with the same content agree, wherever the inputs lie and whatever
lies around them. What a window does not show is not observed.

- Everything that is asked of a view but its place goes by its content (`members_congr`, `runEnd_congr`,
  `sliceIndex_congr`, `compare_congr`, `compareNoCase_congr`, `findSubstring_congr`). `Text.seenAlike`, `Bytes.seenAlike`:
  **so do the loops that go along its base**, which could see more.
- `Alike`: primitives that differ in nothing but the place of their literals, sets and needles. They match the same
  number of units of inputs with the same content (`matched?_alike`).
- `SameAnswer`: both outcomes are successes with the same contents, moved by the same number of units from their own
  inputs, or both are recoverable errors of the same kind, each at its own input.
- `content_decides_primitives`: **alike primitives give the same answer to inputs with the same content.** In numbers
  it is also the same displacement, on texts always and on octets as long as positions stay in reach.
- `displacement_differs_far_out`: far out the positions of octets are rounded, and the displacement is not the same.
-/
import SliceParser.Proofs.Primitive.Answer
import SliceParser.Proofs.View.Cut
import SliceParser.Proofs.View.Scans

namespace SliceParser

/-! ## Views with the same content -/

namespace View

variable {V κ ω : Type} [Position ω] [View V κ ω] {v w v' w' : V}

theorem length_congr (h : content v = content w) : length v = length w := by
  rw [← length_content, h, length_content]

theorem compare_congr [DecidableEq κ] (h : content v = content w) (h' : content v' = content w') :
    compare v v' = compare w w' := by
  rw [compare, compare, h, h']

theorem findSubstring_congr [DecidableEq κ] (h : content v = content w) (h' : content v' = content w') :
    findSubstring v v' = findSubstring w w' := by
  rw [findSubstring, findSubstring, h, h']

variable {α : Type} [Alphabet κ α]

theorem compareNoCase_congr [DecidableEq κ] (h : content v = content w) (h' : content v' = content w') :
    compareNoCase v v' = compareNoCase w w' := by
  rw [compareNoCase, compareNoCase, h, h']

theorem members_congr (h : content v = content w) : (members v : List α) = members w := by
  rw [members, members, h]

theorem elements_congr (h : content v = content w) : (elements v : List (Nat × α)) = elements w := by
  rw [elements, elements, h]

theorem runEnd_congr (h : content v = content w) (p : α → Bool) : runEnd v p = runEnd w p := by
  rw [runEnd_eq, runEnd_eq, members_congr h]

theorem sliceIndex_congr (h : content v = content w) (count : Nat) : sliceIndex v count = sliceIndex w count := by
  rw [sliceIndex, sliceIndex, h]

end View

/-- the loops along the sources of one text and literal find what they find along those of another -/
structure Text.SeenAlike (v literal v' literal' : Text) : Prop where
  elements_eq : v.stridesFrom 0 = v'.stridesFrom 0
  compare_eq : v.compareAlong literal = v'.compareAlong literal'
  compareNoCase_eq : v.foldAlong (View.length literal) (literal.stridesFrom 0) =
    v'.foldAlong (View.length literal') (literal'.stridesFrom 0)
  findSubstring_eq : v.findAlong literal = v'.findAlong literal'

/-- the same along buffers -/
structure Bytes.SeenAlike (v literal v' literal' : Bytes) : Prop where
  elements_eq : v.octetsFrom 0 = v'.octetsFrom 0
  compare_eq : v.compareAlong id literal = v'.compareAlong id literal'
  compareNoCase_eq : v.compareAlong asciiLower literal = v'.compareAlong asciiLower literal'
  findSubstring_eq : v.findAlong literal = v'.findAlong literal'

/-- **No loop along a source sees what lies around a window.** -/
theorem Text.seenAlike {v v' literal literal' : Text} (h : View.content v = View.content v')
    (h' : View.content literal = View.content literal') : Text.SeenAlike v literal v' literal' where
  elements_eq := by rw [stridesFrom_eq, stridesFrom_eq, View.elements_congr h]
  compare_eq := by rw [← compare_eq_along, ← compare_eq_along, View.compare_congr h h']
  compareNoCase_eq := by rw [← compareNoCase_eq_along, ← compareNoCase_eq_along, View.compareNoCase_congr h h']
  findSubstring_eq := by rw [← findSubstring_eq_along, ← findSubstring_eq_along, View.findSubstring_congr h h']

/-- **Nor does one along a buffer.** -/
theorem Bytes.seenAlike {v v' literal literal' : Bytes} (h : View.content v = View.content v')
    (h' : View.content literal = View.content literal') : Bytes.SeenAlike v literal v' literal' where
  elements_eq := by rw [← elements_eq_along, ← elements_eq_along, View.elements_congr h]
  compare_eq := by rw [← compare_eq_along, ← compare_eq_along, View.compare_congr h h']
  compareNoCase_eq := by rw [← compareNoCase_eq_along, ← compareNoCase_eq_along, View.compareNoCase_congr h h']
  findSubstring_eq := by rw [← findSubstring_eq_along, ← findSubstring_eq_along, View.findSubstring_congr h h']

/-! ## Primitives that differ in place only -/

namespace Primitive

variable {V κ α ω E F : Type} [Position ω] [View V κ ω]

/-- the same primitive with the same arguments, up to views of the same content -/
inductive Alike : Primitive V α → Primitive V α → Prop
  | tag {literal literal' : V} : View.content literal = View.content literal' →
      Alike (.tag literal) (.tag literal')
  | tagNoCase {literal literal' : V} : View.content literal = View.content literal' →
      Alike (.tagNoCase literal) (.tagNoCase literal')
  | isA {set set' : V} : View.content set = View.content set' → Alike (.isA set) (.isA set')
  | isNot {set set' : V} : View.content set = View.content set' → Alike (.isNot set) (.isNot set')
  | takeWhile (p : α → Bool) : Alike (.takeWhile p) (.takeWhile p)
  | takeWhile1 (p : α → Bool) : Alike (.takeWhile1 p) (.takeWhile1 p)
  | takeWhileMN (least most : Number) (p : α → Bool) : Alike (.takeWhileMN least most p) (.takeWhileMN least most p)
  | takeTill (p : α → Bool) : Alike (.takeTill p) (.takeTill p)
  | takeTill1 (p : α → Bool) : Alike (.takeTill1 p) (.takeTill1 p)
  | take (count : Number) : Alike (.take count) (.take count)
  | takeUntil {needle needle' : V} : View.content needle = View.content needle' →
      Alike (.takeUntil needle) (.takeUntil needle')

theorem kind?_alike {primitive primitive' : Primitive V α} (h : Alike primitive primitive') :
    primitive.kind? = primitive'.kind? := by
  cases h <;> rfl

theorem matched?_alike [Alphabet κ α] [DecidableEq κ] [DecidableEq α] {primitive primitive' : Primitive V α}
    (h : Alike primitive primitive') {input input' : V} (hc : View.content input = View.content input') :
    primitive.matched? input = primitive'.matched? input' := by
  cases h with
  | tag h => rw [matched?, matched?, View.compare_congr hc h, View.length_congr h]
  | tagNoCase h => rw [matched?, matched?, View.compareNoCase_congr hc h, View.length_congr h]
  | isA h => rw [matched?, matched?, View.members_congr h, View.runEnd_congr hc]
  | isNot h => rw [matched?, matched?, View.members_congr h, View.runEnd_congr hc]
  | takeWhile p => rw [matched?, matched?, View.runEnd_congr hc]
  | takeWhile1 p => rw [matched?, matched?, View.runEnd_congr hc]
  | takeWhileMN least most p => simp only [matched?, View.runEnd_congr hc, View.sliceIndex_congr hc]
  | takeTill p => rw [matched?, matched?, View.runEnd_congr hc]
  | takeTill1 p => rw [matched?, matched?, View.runEnd_congr hc]
  | take count => simp only [matched?, View.sliceIndex_congr hc]
  | takeUntil h => exact View.findSubstring_congr hc h

/-! ## The same answer -/

/-- two outcomes that say the same, each of its own input -/
def SameAnswer (errors : ErrorStrategy V E) (errors' : ErrorStrategy V F) (input input' : V) :
    Outcome V V E → Outcome V V F → Prop
  | .success rest value, .success rest' value' =>
    View.length value = View.length value' ∧ View.content value = View.content value' ∧
    View.length rest = View.length rest' ∧ View.content rest = View.content rest' ∧
    ∃ k, View.IsCut input k rest value ∧ View.IsCut input' k rest' value'
  | .failed err, .failed err' =>
    ∃ kind, err = .recoverable (errors.fromKind input kind) ∧ err' = .recoverable (errors'.fromKind input' kind)
  | _, _ => False

/-- the sides of two cuts lie equally far behind their own inputs -/
def SameDisplacement (input input' rest value rest' value' : V) : Prop :=
  ∃ k, View.DisplacedBy k input rest value ∧ View.DisplacedBy k input' rest' value'

section

variable [Alphabet κ α] [DecidableEq κ] [DecidableEq α] {errors : ErrorStrategy V E} {errors' : ErrorStrategy V F}
  {primitive primitive' : Primitive V α} {input input' : V}

/-- both match the same number of units, or neither matches any -/
theorem sameAnswer_of_answers (halike : Alike primitive primitive') (hc : View.content input = View.content input')
    {outcome : Outcome V V E} {outcome' : Outcome V V F} (h : Answers errors input primitive outcome)
    (h' : Answers errors' input' primitive' outcome') : SameAnswer errors errors' input input' outcome outcome' := by
  have hmatched := matched?_alike halike hc
  cases h with
  | cut k hk =>
    cases h' with
    | cut k' hk' =>
      obtain rfl : k = k' := Option.some.inj (hk.symm.trans (hmatched.trans hk'))
      have hvalue : View.content (View.take input k) = View.content (View.take input' k) := by
        rw [View.content_take, View.content_take, hc]
      have hrest : View.content (View.drop input k) = View.content (View.drop input' k) := by
        rw [View.content_drop, View.content_drop, hc]
      exact ⟨View.length_congr hvalue, hvalue, View.length_congr hrest, hrest, k,
        View.isCut input (matched?_le hk), View.isCut input' (matched?_le hk')⟩
    | error kind hnone => simp [hmatched, hnone] at hk
  | error kind hnone hkind =>
    cases h' with
    | cut k' hk' => simp [hmatched, hk'] at hnone
    | error kind' _ hkind' =>
      obtain rfl : kind = kind' := Option.some.inj (hkind.symm.trans ((kind?_alike halike).trans hkind'))
      exact ⟨kind, rfl, rfl⟩

theorem build_sameAnswer (halike : Alike primitive primitive') {parser : Parser V V E} {parser' : Parser V V F}
    (h : primitive.build errors = .ok parser) (h' : primitive'.build errors' = .ok parser')
    (hc : View.content input = View.content input') :
    ∃ outcome outcome', parser input = .ok outcome ∧ parser' input' = .ok outcome' ∧
      SameAnswer errors errors' input input' outcome outcome' := by
  obtain ⟨outcome, hrun, hanswers⟩ := build_answers h input
  obtain ⟨outcome', hrun', hanswers'⟩ := build_answers h' input'
  exact ⟨outcome, outcome', hrun, hrun', sameAnswer_of_answers halike hc hanswers hanswers'⟩

end

end Primitive

open Primitive

/-- **Content decides.** Alike primitives, each with a strategy of its own, agree on inputs with the same content. What
they ask of a view is what the loops along its base find, and these do not see what lies around the window. -/
theorem content_decides_primitives {E F : Type} :
    (∀ (errors : ErrorStrategy Text E) (errors' : ErrorStrategy Text F) (primitive primitive' : Primitive Text Element)
      (parser : Parser Text Text E) (parser' : Parser Text Text F), Alike primitive primitive' →
      primitive.build errors = .ok parser → primitive'.build errors' = .ok parser' →
      ∀ input input' : Text, View.content input = View.content input' →
        ∃ outcome outcome', parser input = .ok outcome ∧ parser' input' = .ok outcome' ∧
          SameAnswer errors errors' input input' outcome outcome' ∧
          ∀ rest value rest' value', outcome = .success rest value → outcome' = .success rest' value' →
            SameDisplacement input input' rest value rest' value') ∧
    (∀ (errors : ErrorStrategy Bytes E) (errors' : ErrorStrategy Bytes F) (primitive primitive' : Primitive Bytes UInt8)
      (parser : Parser Bytes Bytes E) (parser' : Parser Bytes Bytes F), Alike primitive primitive' →
      primitive.build errors = .ok parser → primitive'.build errors' = .ok parser' →
      ∀ input input' : Bytes, View.content input = View.content input' →
        ∃ outcome outcome', parser input = .ok outcome ∧ parser' input' = .ok outcome' ∧
          SameAnswer errors errors' input input' outcome outcome' ∧
          ∀ rest value rest' value', outcome = .success rest value → outcome' = .success rest' value' →
            View.InReach input (View.length value) → View.InReach input' (View.length value') →
            SameDisplacement input input' rest value rest' value') ∧
    (∀ v literal : Text, v.ReadAlong literal) ∧
    (∀ v v' literal literal' : Text, View.content v = View.content v' → View.content literal = View.content literal' →
      Text.SeenAlike v literal v' literal') ∧
    (∀ v literal : Bytes, v.ReadAlong literal) ∧
    (∀ v v' literal literal' : Bytes, View.content v = View.content v' → View.content literal = View.content literal' →
      Bytes.SeenAlike v literal v' literal') := by
  refine ⟨?_, ?_, Text.readAlong, fun _ _ _ _ => Text.seenAlike, Bytes.readAlong, fun _ _ _ _ => Bytes.seenAlike⟩
  · intro errors errors' primitive primitive' parser parser' halike hbuild hbuild' input input' hc
    obtain ⟨outcome, outcome', hrun, hrun', hsame⟩ := build_sameAnswer halike hbuild hbuild' hc
    refine ⟨outcome, outcome', hrun, hrun', hsame, ?_⟩
    rintro rest value rest' value' rfl rfl
    obtain ⟨-, -, -, -, k, hcut, hcut'⟩ := hsame
    exact ⟨k, Text.displacedBy_of_isCut hcut, Text.displacedBy_of_isCut hcut'⟩
  · intro errors errors' primitive primitive' parser parser' halike hbuild hbuild' input input' hc
    obtain ⟨outcome, outcome', hrun, hrun', hsame⟩ := build_sameAnswer halike hbuild hbuild' hc
    refine ⟨outcome, outcome', hrun, hrun', hsame, ?_⟩
    rintro rest value rest' value' rfl rfl hreach hreach'
    obtain ⟨-, -, -, -, k, hcut, hcut'⟩ := hsame
    rw [hcut.length_value] at hreach
    rw [hcut'.length_value] at hreach'
    exact ⟨k, Bytes.displacedBy_of_isCut hcut hreach, Bytes.displacedBy_of_isCut hcut' hreach'⟩

/-- a window that cuts a pair against a text of its own, and octets at the start of a buffer against octets far out -/
theorem content_decides_in_windows :
    let cutPair : Text := ⟨⟨[0xD83D, 0xDE00, 0x61], 1, 3, by decide, by decide⟩⟩
    let alone : Text := .ofUnits [0xDE00, 0x61]
    let half : Text := ⟨⟨[0xD83D, 0xDE00], 1, 2, by decide, by decide⟩⟩
    let half' : Text := .ofUnits [0xDE00]
    let near : Bytes := .ofOctets [1, 2] 0 (.ofInt 0)
    let far : Bytes := ⟨⟨[9, 1, 2, 9], 1, 3, by decide, by decide⟩, 5, .ofInt (2 ^ 53 - 1)⟩
    Alike (α := Element) (.isA half) (.isA half') ∧ View.content cutPair = View.content alone ∧
    SameAnswer (E := SimpleError Text) (F := Unit) .simple .unit cutPair alone
      (.success (View.drop cutPair 1) (View.take cutPair 1)) (.success (View.drop alone 1) (View.take alone 1)) ∧
    SameDisplacement cutPair alone
      (View.drop cutPair 1) (View.take cutPair 1) (View.drop alone 1) (View.take alone 1) ∧
    Text.SeenAlike cutPair half alone half' ∧
    View.content near = View.content far ∧ View.InReach near 1 ∧ View.InReach far 1 ∧
    SameDisplacement near far (View.drop near 1) (View.take near 1) (View.drop far 1) (View.take far 1) := by
  intro cutPair alone half half' near far
  have halike : Alike (α := Element) (.isA half) (.isA half') := .isA rfl
  obtain ⟨outcome, outcome', hrun, hrun', hsame, hplace⟩ :=
    (content_decides_primitives (E := SimpleError Text) (F := Unit)).1 .simple .unit (.isA half) (.isA half') _ _ halike
      rfl rfl cutPair alone rfl
  obtain rfl : Outcome.success (View.drop cutPair 1) (View.take cutPair 1) = outcome := Except.ok.inj hrun
  obtain rfl : Outcome.success (View.drop alone 1) (View.take alone 1) = outcome' := Except.ok.inj hrun'
  obtain ⟨count, count', hcount, hcount', -, hplaceBytes⟩ :=
    (content_decides_primitives (E := SimpleError Bytes) (F := Unit)).2.1 .simple .unit (.take (.ofNat 1))
      (.take (.ofNat 1)) (Parser.takeCount 1 .simple) (Parser.takeCount 1 .unit) (.take _) rfl rfl near far rfl
  obtain rfl : Outcome.success (View.drop near 1) (View.take near 1) = count := Except.ok.inj hcount
  obtain rfl : Outcome.success (View.drop far 1) (View.take far 1) = count' := Except.ok.inj hcount'
  have hseen : Text.SeenAlike cutPair half alone half' :=
    (content_decides_primitives (E := Unit) (F := Unit)).2.2.2.1 cutPair alone half half' rfl rfl
  have hnear : View.InReach near 1 := ⟨0, rfl, by decide⟩
  have hfar : View.InReach far 1 := ⟨2 ^ 53 - 1, rfl, by decide⟩
  exact ⟨halike, rfl, hsame, hplace _ _ _ _ rfl rfl, hseen, rfl, hnear, hfar, hplaceBytes _ _ _ _ rfl rfl hnear hfar⟩

/-- two octets taken at the last safe position end at 2 to the 53 plus 1, which rounds down -/
theorem displacement_differs_far_out :
    let near : Bytes := .ofOctets [1, 2, 3] 0 (.ofInt 0)
    let far : Bytes := .ofOctets [1, 2, 3] 0 (.ofInt (2 ^ 53 - 1))
    let parser : Parser Bytes Bytes (SimpleError Bytes) := Parser.takeCount 2 .simple
    (Primitive.take (.ofNat 2) : Primitive Bytes UInt8).build .simple = .ok parser ∧
    View.content near = View.content far ∧
    parser near = .ok (.success (View.drop near 2) (View.take near 2)) ∧
    parser far = .ok (.success (View.drop far 2) (View.take far 2)) ∧
    ¬ SameDisplacement near far (View.drop near 2) (View.take near 2) (View.drop far 2) (View.take far 2) := by
  intro near far parser
  refine ⟨rfl, rfl, rfl, rfl, ?_⟩
  rintro ⟨k, hnear, hfar⟩
  have h2 : View.displacement (View.drop near 2) near = some 2 := by decide +kernel
  have h1 : View.displacement (View.drop far 2) far = some 1 := by decide +kernel
  have hk2 := Option.some.inj (h2.symm.trans hnear.rest)
  have hk1 := Option.some.inj (h1.symm.trans hfar.rest)
  omega

end SliceParser
