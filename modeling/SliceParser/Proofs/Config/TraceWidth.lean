/-
THE TRACE WIDTH from the environment and from the program.

- `decimal`: the decimal digits of a natural. They spell it (`digitsValue_decimal`), so as the text of a variable they
  stand for that number, as long as it is in reach and is neither 0 nor 1, which stand for truth values
  (`variableValue_decimal`).
- `WidthIsKept`: a width is what tracing reads, whether a variable has its digits or the program sets it.
- `widthIsKept_iff`: **every positive safe width is kept but 1.** A variable with the digit 1 leaves the default, though
  the program can set that width.
-/
import SliceParser.Proofs.Config.Precedence
import SliceParser.Proofs.Number.Exact

namespace SliceParser.Config

/-! ## Digits -/

/-- the decimal digits of a natural -/
def decimal (n : Nat) : Units := .ofString (toString n)

theorem toNat_of_mem_toDigits {n : Nat} {c : Char} (h : c ∈ Nat.toDigits 10 n) : 0x30 ≤ c.toNat ∧ c.toNat ≤ 0x39 := by
  have hdigit : c.isDigit = true := Nat.isDigit_of_mem_toDigits (by decide) (by decide) h
  simpa [Char.isDigit, UInt32.le_iff_toNat_le] using hdigit

/-- a digit is a unit of its own -/
theorem toNat_digit {n : Nat} {c : Char} (h : c ∈ Nat.toDigits 10 n) : (UInt16.ofNat c.toNat).toNat = c.toNat := by
  have hle := (toNat_of_mem_toDigits h).2
  rw [UInt16.toNat_ofNat', Nat.mod_eq_of_lt (by omega)]

theorem decimal_eq (n : Nat) : decimal n = (Nat.toDigits 10 n).map fun c => UInt16.ofNat c.toNat := by
  have hcodes : ∀ c ∈ Nat.toDigits 10 n, (Element.ofCode c.toNat).units = [UInt16.ofNat c.toNat] := by
    intro c hc
    have hlt : c.toNat < 0x10000 := lt_of_le_of_lt (toNat_of_mem_toDigits hc).2 (by decide)
    rw [Element.ofCode, if_pos hlt, Element.units]
  calc decimal n
      = (Nat.toDigits 10 n).flatMap fun c => (Element.ofCode c.toNat).units := by
        rw [decimal, Nat.toString_eq_ofList_toDigits, Units.ofString, Units.ofCodes, String.toList_ofList,
          List.flatMap_map]
    _ = (Nat.toDigits 10 n).map fun c => UInt16.ofNat c.toNat := by
        rw [List.flatMap_congr hcodes, List.map_eq_flatMap]

theorem isDigit_of_mem_decimal {n : Nat} {u : UInt16} (h : u ∈ decimal n) : isDigit u = true := by
  rw [decimal_eq, List.mem_map] at h
  obtain ⟨c, hc, rfl⟩ := h
  simpa [isDigit, UInt16.le_iff_toNat_le, toNat_digit hc] using toNat_of_mem_toDigits hc

/-- the digits of a natural spell it -/
theorem digitsValue_decimal (n : Nat) : digitsValue (decimal n) = n := by
  calc digitsValue (decimal n)
      = (Nat.toDigits 10 n).foldl (fun m c => m * 10 + ((UInt16.ofNat c.toNat).toNat - 0x30)) 0 := by
        rw [digitsValue, decimal_eq, List.foldl_map]
    _ = (Nat.toDigits 10 n).foldl (fun m c => 10 * m + (c.toNat - '0'.toNat)) 0 := by
        apply List.foldl_ext
        intro m c hc
        rw [toNat_digit hc, Nat.mul_comm]
        rfl
    _ = n := by rw [← Nat.ofDigitChars_eq_foldl, Nat.ofDigitChars_ten_toDigits]

theorem decimal_ne_of_digitsValue {n : Nat} {us : Units} (h : digitsValue us ≠ n) : decimal n ≠ us := by
  rintro rfl
  exact h (digitsValue_decimal n)

theorem variableValue_decimal {n : Nat} (hn : 1 < n) (hsafe : n < 2 ^ 53) :
    variableValue (decimal n) = .number (.ofNat n) := by
  have hone : digitsValue (.ofString "1") = 1 := by decide +kernel
  have hzero : digitsValue (.ofString "0") = 0 := by decide +kernel
  have hword : ∀ us : Units, us.all isDigit = false → decimal n ≠ us := by
    rintro us hus rfl
    exact absurd (List.all_eq_true.2 fun u hu => isDigit_of_mem_decimal hu) (by rw [hus]; decide)
  have htrue : ¬ (decimal n = .ofString "1" ∨ decimal n = .ofString "true") := by
    rintro (h | h)
    · exact decimal_ne_of_digitsValue (by omega) h
    · exact hword _ (by decide +kernel) h
  have hfalse : ¬ (decimal n = .ofString "0" ∨ decimal n = .ofString "false" ∨ decimal n = []) := by
    rintro (h | h | h)
    · exact decimal_ne_of_digitsValue (by omega) h
    · exact hword _ (by decide +kernel) h
    · exact decimal_ne_of_digitsValue (by rw [digitsValue, List.foldl_nil]; omega) h
  have hround : Number.round ((n : Int) : Rat) = .ofNat n := Number.round_intCast hsafe.le
  rw [variableValue, if_neg htrue, if_neg hfalse, if_pos (List.all_eq_true.2 fun u hu => isDigit_of_mem_decimal hu),
    digitsValue_decimal, hround]

/-! ## Widths -/

def widthPath : Path := [.ofString "trace", .ofString "width"]

/-- the variable that sets a width by its digits -/
def widthVariable (n : Nat) : Units × Units := (mark ++ .ofString "TRACE_WIDTH", decimal n)

/-- what a program sets to set a width -/
def widthRecord (n : Nat) : Record := [(.ofString "trace", .record [(.ofString "width", .number (.ofNat n))])]

theorem plain_widthRecord (n : Nat) : (Value.record (widthRecord n)).Plain := by
  have hleaf : (Value.number (.ofNat n)).IsLeaf := trivial
  have hwritten : (Value.record (Record.setPath (.number (.ofNat n)) widthPath [])).Plain :=
    Record.plain_setPath (.leaf hleaf) (by decide +kernel) Value.plain_nil
  exact hwritten

theorem variablePath?_width (n : Nat) : variablePath? (widthVariable n).1 = some widthPath := by
  have hname : variablePath? (mark ++ .ofString "TRACE_WIDTH") = some widthPath := by decide +kernel
  exact hname

theorem filter_widthVariable (n : Nat) : [widthVariable n].filter isOurs = [widthVariable n] := by
  simp [isOurs, variablePath?_width]

theorem traceWidth_of_number {s : Settings} {n : Nat} (hn : 0 < n)
    (h : s.getPath? widthPath = some (.number (.ofNat n))) : s.traceWidth = n := by
  have hpath : s.getPath? [.ofString "trace", .ofString "width"] = some (.number (.ofNat n)) := h
  obtain ⟨m, rfl⟩ := Nat.exists_eq_add_of_lt hn
  simp [Settings.traceWidth, hpath]

theorem traceWidth_of_bool {s : Settings} {b : Bool} (h : s.getPath? widthPath = some (.bool b)) :
    s.traceWidth = 16 := by
  have hpath : s.getPath? [.ofString "trace", .ofString "width"] = some (.bool b) := h
  simp [Settings.traceWidth, hpath]

/-- behind a reset, the only variable of ours is what its path answers -/
theorem getPath?_reset {s : Settings} {name text : Units} {path : Path} (hpath : variablePath? name = some path)
    (honly : s.environment.filter isOurs = [(name, text)]) : s.reset.getPath? path = some (variableValue text) := by
  have hown : Value.ownPath? path (.record s.environment.record) = some (variableValue text) := by
    rw [← record_filter_isOurs, honly]
    exact ownPath?_setVariable hpath []
  apply Value.getPath?_of_ownPath?
  calc Value.ownPath? path (.record s.reset.record)
      = Value.ownPath? path (Value.merge (.record (defaults.merge [])) (.record s.environment.record)) := by
        rw [merge_environment]
        rfl
    _ = some (variableValue text) :=
        Value.ownPath?_merge_of_isLeaf (plain_environment _) (variableValue_isLeaf text) hown _

/-- behind a reset and without a variable of ours, a leaf that the program sets is what its path answers -/
theorem getPath?_reset_set {s : Settings} {values : Record} {path : Path} {leaf : Value}
    (hplain : (Value.record values).Plain) (hleaf : leaf.IsLeaf)
    (hvalues : Value.ownPath? path (.record values) = some leaf) (hnone : s.environment.filter isOurs = []) :
    (s.reset.set values).getPath? path = some leaf := by
  have hempty : s.environment.record = [] := by
    rw [← record_filter_isOurs, hnone]
    rfl
  have hset : Record.merge [] values = values := by rw [Record.merge, Value.nil_merge hplain, Value.fields_object]
  have hrecord : Value.record (s.reset.set values).record = Value.merge (.record defaults) (.record values) := by
    calc Value.record (s.reset.set values).record
        = .record ((defaults.merge (Record.merge [] values)).merge s.environment.record) := rfl
      _ = .record (defaults.merge values) := by
        rw [hempty, hset]
        rfl
      _ = Value.merge (.record defaults) (.record values) :=
        (Value.merge_record (Value.plain_record_iff.1 hplain).1 _).symm
  rw [Settings.getPath?, hrecord]
  apply Value.getPath?_of_ownPath?
  exact Value.ownPath?_merge_of_isLeaf hplain hleaf hvalues (.record defaults)

/-- a width is what tracing reads, from the digits of a variable as from what the program sets -/
def WidthIsKept (n : Nat) : Prop :=
  (∀ s : Settings, s.environment.filter isOurs = [widthVariable n] → s.reset.traceWidth = n) ∧
  ∀ s : Settings, s.environment.filter isOurs = [] → (s.reset.set (widthRecord n)).traceWidth = n

theorem traceWidth_written {s : Settings} {n : Nat} (hn : 1 < n) (hsafe : n < 2 ^ 53)
    (honly : s.environment.filter isOurs = [widthVariable n]) : s.reset.traceWidth = n := by
  apply traceWidth_of_number (by omega)
  rw [getPath?_reset (variablePath?_width n) honly, variableValue_decimal hn hsafe]

/-- the digit 1 stands for a truth value, and tracing passes over it -/
theorem traceWidth_written_one {s : Settings} (honly : s.environment.filter isOurs = [widthVariable 1]) :
    s.reset.traceWidth = 16 := by
  have hone : variableValue (decimal 1) = .bool true := if_pos (Or.inl (by decide +kernel))
  apply traceWidth_of_bool
  rw [getPath?_reset (variablePath?_width 1) honly, hone]

theorem traceWidth_set {s : Settings} {n : Nat} (hn : 0 < n) (hnone : s.environment.filter isOurs = []) :
    (s.reset.set (widthRecord n)).traceWidth = n := by
  have hvalues : Value.ownPath? widthPath (.record (widthRecord n)) = some (.number (.ofNat n)) := by
    simp [widthPath, widthRecord, Value.ownPath?, Record.get?]
  exact traceWidth_of_number hn (getPath?_reset_set (plain_widthRecord n) trivial hvalues hnone)

/-- **Every positive safe width is kept but 1**, and that one too if the program sets it. -/
theorem widthIsKept_iff {n : Nat} (hn : 0 < n) (hsafe : n < 2 ^ 53) :
    (WidthIsKept n ↔ n ≠ 1) ∧
    ∀ s : Settings, s.environment.filter isOurs = [] → (s.reset.set (widthRecord n)).traceWidth = n := by
  refine ⟨⟨?_, ?_⟩, fun s => traceWidth_set hn⟩
  · rintro ⟨hwritten, -⟩ rfl
    have hwidth := hwritten (.initial [widthVariable 1]) (filter_widthVariable 1)
    rw [traceWidth_written_one (filter_widthVariable 1)] at hwidth
    exact absurd hwidth (by decide)
  · intro hne
    exact ⟨fun s => traceWidth_written (by omega) hsafe, fun s => traceWidth_set hn⟩

/-- the greatest safe width is kept -/
theorem greatest_width_is_kept : 0 < 2 ^ 53 - 1 ∧ 2 ^ 53 - 1 < 2 ^ 53 ∧ WidthIsKept (2 ^ 53 - 1) := by
  have hpos : 0 < 2 ^ 53 - 1 := by decide
  have hsafe : 2 ^ 53 - 1 < 2 ^ 53 := by decide
  exact ⟨hpos, hsafe, (widthIsKept_iff hpos hsafe).1.2 (by decide)⟩

/-- the width 1 is lost on its way from the environment, where it is read as a truth value -/
theorem width_one_is_lost :
    let written : Settings := .initial [widthVariable 1]
    let quiet : Settings := .initial []
    written.environment.filter isOurs = [widthVariable 1] ∧ quiet.environment.filter isOurs = [] ∧
    written.reset.traceWidth = 16 ∧ (quiet.reset.set (widthRecord 1)).traceWidth = 1 ∧
    ¬ WidthIsKept 1 := by
  intro written quiet
  have hlost : written.reset.traceWidth = 16 := traceWidth_written_one (filter_widthVariable 1)
  refine ⟨filter_widthVariable 1, rfl, hlost, traceWidth_set (by decide) rfl, ?_⟩
  intro hkept
  have hwidth := hkept.1 written (filter_widthVariable 1)
  rw [hlost] at hwidth
  exact absurd hwidth (by decide)

end SliceParser.Config
