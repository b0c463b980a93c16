/-
UTF-8 of code points, written and read back.

- `start_one` … `start_four`: what a reader makes of an octet that begins a character of so many octets;
  `decodeFrom_more`, `decodeFrom_last`: what it makes of the others.
- `decodeFrom_encodeCode`: **the octets of a scalar value are read as that value**, whatever follows them.
- `encodeCode_begins`: the first octet of a code point leads, and the others do not.
- `selfSynchronizing_encodeElement`: **the octets of whole elements can be told apart**: what begins with the octets of
  an element is read as that element first.
-/
import SliceParser.Proofs.Unicode.WellFormed
import SliceParser.Unicode.Utf8

namespace SliceParser.Utf8

/-! ## Reading -/

theorem start_one : ∀ n < 0x80, start (UInt8.ofNat n) = ([n], .between) := by
  decide +kernel

theorem start_two : ∀ n < 0x20, 2 ≤ n → start (UInt8.ofNat (0xC0 + n)) = ([], .inside n 1 0x80 0xBF) := by
  decide +kernel

theorem start_three : ∀ n < 0x10, start (UInt8.ofNat (0xE0 + n)) =
    ([], .inside n 2 (if n = 0 then 0xA0 else 0x80) (if n = 0xD then 0x9F else 0xBF)) := by
  decide +kernel

theorem start_four : ∀ n < 5, start (UInt8.ofNat (0xF0 + n)) =
    ([], .inside n 3 (if n = 0 then 0x90 else 0x80) (if n = 4 then 0x8F else 0xBF)) := by
  decide +kernel

theorem decodeFrom_cons (s : State) (b : UInt8) (rest : List UInt8) :
    decodeFrom s (b :: rest) = (step s b).1 ++ decodeFrom (step s b).2 rest := by
  cases s <;> rfl

/-- an octet within the bounds adds its six bits -/
theorem step_inside (code remaining : Nat) {low high : UInt8} {x : Nat} (hx : x < 0x40) (hlow : low.toNat ≤ 0x80 + x)
    (hhigh : 0x80 + x ≤ high.toNat) : step (.inside code remaining low high) (UInt8.ofNat (0x80 + x)) =
      if remaining ≤ 1 then ([code * 0x40 + x], .between)
      else ([], .inside (code * 0x40 + x) (remaining - 1) 0x80 0xBF) := by
  have hoctet : (UInt8.ofNat (0x80 + x)).toNat = 0x80 + x := by
    apply UInt8.toNat_ofNat_of_lt'
    rw [UInt8.size]
    omega
  have hwithin : (low ≤ UInt8.ofNat (0x80 + x) && UInt8.ofNat (0x80 + x) ≤ high) = true := by
    rw [Bool.and_eq_true, decide_eq_true_eq, decide_eq_true_eq, UInt8.le_iff_toNat_le, UInt8.le_iff_toNat_le, hoctet]
    exact ⟨hlow, hhigh⟩
  simp only [step, hwithin, if_true, hoctet, Nat.add_sub_cancel_left]

/-- the last octet of a character completes it -/
theorem decodeFrom_last (code n : Nat) (rest : List UInt8) :
    decodeFrom (.inside code 1 0x80 0xBF) (UInt8.ofNat (0x80 + n % 0x40) :: rest) =
      (code * 0x40 + n % 0x40) :: decodeFrom .between rest := by
  rw [decodeFrom_cons, step_inside code 1 (Nat.mod_lt n (by decide)) (Nat.le_add_right 0x80 _)
    (by change _ ≤ 0xBF; omega)]
  rfl

/-- an octet that is neither the first nor the last of a character, within the bounds that the octet before it sets -/
theorem decodeFrom_more (code remaining n : Nat) {low high : UInt8} (hlow : low.toNat ≤ 0x80 + n % 0x40)
    (hhigh : 0x80 + n % 0x40 ≤ high.toNat) (rest : List UInt8) :
    decodeFrom (.inside code (remaining + 2) low high) (UInt8.ofNat (0x80 + n % 0x40) :: rest) =
      decodeFrom (.inside (code * 0x40 + n % 0x40) (remaining + 1) 0x80 0xBF) rest := by
  rw [decodeFrom_cons, step_inside code _ (Nat.mod_lt n (by decide)) hlow hhigh, if_neg (by omega)]
  rfl

/-- **The octets of a scalar value are read as that value.** -/
theorem decodeFrom_encodeCode {c : Nat} (hc : IsScalar c) (hlt : c < 0x110000) (rest : List UInt8) :
    decodeFrom .between (encodeCode c ++ rest) = c :: decodeFrom .between rest := by
  have hstart : ∀ b bs, decodeFrom .between (b :: bs) = (start b).1 ++ decodeFrom (start b).2 bs :=
    fun b bs => decodeFrom_cons .between b bs
  have hfree : ∀ n, (0x80 : UInt8).toNat ≤ 0x80 + n % 0x40 := fun n => Nat.le_add_right 0x80 _
  have hsix : ∀ n, 0x80 + n % 0x40 ≤ (0xBF : UInt8).toNat := fun n => by change _ ≤ 0xBF; omega
  rw [IsScalar] at hc
  unfold encodeCode
  split_ifs with hone htwo hthree
  · rw [List.singleton_append, hstart, start_one c hone]
    rfl
  · have hcode : c / 0x40 * 0x40 + c % 0x40 = c := by omega
    simp only [List.cons_append, List.nil_append]
    rw [hstart, start_two _ (by omega) (by omega), List.nil_append, decodeFrom_last, hcode]
  · -- the second octet keeps out the codes that two octets write, and the surrogates
    have hlow : (if c / 0x1000 = 0 then (0xA0 : UInt8) else 0x80).toNat ≤ 0x80 + c / 0x40 % 0x40 := by
      split_ifs
      · change 0xA0 ≤ _
        omega
      · exact hfree _
    have hhigh : 0x80 + c / 0x40 % 0x40 ≤ (if c / 0x1000 = 0xD then (0x9F : UInt8) else 0xBF).toNat := by
      split_ifs
      · change _ ≤ 0x9F
        omega
      · exact hsix _
    have hcode : (c / 0x1000 * 0x40 + c / 0x40 % 0x40) * 0x40 + c % 0x40 = c := by omega
    simp only [List.cons_append, List.nil_append]
    rw [hstart, start_three _ (by omega), List.nil_append, decodeFrom_more _ _ _ hlow hhigh, decodeFrom_last, hcode]
  · -- here it keeps out the codes that three octets write, and those beyond the last code point
    have hlow : (if c / 0x40000 = 0 then (0x90 : UInt8) else 0x80).toNat ≤ 0x80 + c / 0x1000 % 0x40 := by
      split_ifs
      · change 0x90 ≤ _
        omega
      · exact hfree _
    have hhigh : 0x80 + c / 0x1000 % 0x40 ≤ (if c / 0x40000 = 4 then (0x8F : UInt8) else 0xBF).toNat := by
      split_ifs
      · change _ ≤ 0x8F
        omega
      · exact hsix _
    have hcode : ((c / 0x40000 * 0x40 + c / 0x1000 % 0x40) * 0x40 + c / 0x40 % 0x40) * 0x40 + c % 0x40 = c := by omega
    simp only [List.cons_append, List.nil_append]
    rw [hstart, start_four _ (by omega), List.nil_append, decodeFrom_more _ _ _ hlow hhigh,
      decodeFrom_more _ _ _ (hfree _) (hsix _), decodeFrom_last, hcode]

/-! ## Telling elements apart -/

/-- an octet that begins a character -/
def leads (b : UInt8) : Bool := b < 0x80 || 0xC0 ≤ b

theorem leads_ofNat {n : Nat} (h : n < 0x100) : leads (UInt8.ofNat n) = decide (n < 0x80 ∨ 0xC0 ≤ n) := by
  have hoctet : (UInt8.ofNat n).toNat = n := UInt8.toNat_ofNat_of_lt' h
  rw [leads, Bool.eq_iff_iff, Bool.or_eq_true, decide_eq_true_eq, decide_eq_true_eq, decide_eq_true_eq,
    UInt8.lt_iff_toNat_lt, UInt8.le_iff_toNat_le, hoctet]
  exact Iff.rfl

/-- the first octet of a code point leads, and the others do not -/
theorem encodeCode_begins {c : Nat} (h : c < 0x110000) :
    ∃ b bs, encodeCode c = b :: bs ∧ leads b = true ∧ ∀ w ∈ bs, leads w = false := by
  have hlead : ∀ n, n < 0x100 → n < 0x80 ∨ 0xC0 ≤ n → leads (UInt8.ofNat n) = true := fun n hn hleads => by
    rw [leads_ofNat hn, decide_eq_true hleads]
  have hinside : ∀ n, leads (UInt8.ofNat (0x80 + n % 0x40)) = false := fun n => by
    rw [leads_ofNat (by omega), decide_eq_false (by omega)]
  unfold encodeCode
  split_ifs with hone htwo hthree
  · exact ⟨_, _, rfl, hlead c (by omega) (by omega), by simp⟩
  · exact ⟨_, _, rfl, hlead _ (by omega) (by omega), by simp only [List.forall_mem_cons, hinside]; simp⟩
  · exact ⟨_, _, rfl, hlead _ (by omega) (by omega), by simp only [List.forall_mem_cons, hinside]; simp⟩
  · exact ⟨_, _, rfl, hlead _ (by omega) (by omega), by simp only [List.forall_mem_cons, hinside]; simp⟩

theorem encodeElement_whole {e : Element} (h : e.Whole) : encodeElement e = encodeCode e.code := by
  have hlone : e.isLone = false := by
    cases e with
    | unit u => rw [Element.isLone, h.1, h.2]; rfl
    | pair => rfl
  rw [encodeElement, hlone]
  rfl

/-- **The octets of whole elements can be told apart.** -/
theorem selfSynchronizing_encodeElement : SelfSynchronizing encodeElement leads Element.Whole where
  begins e he := by
    rw [encodeElement_whole he]
    exact encodeCode_begins he.isScalar_code.2
  eq_of_prefix e f he hf hpre := by
    rw [encodeElement_whole he, encodeElement_whole hf] at hpre
    obtain ⟨tail, htail⟩ := hpre
    -- one text, read twice: its first code point is that of either element
    have hread := decodeFrom_encodeCode hf.isScalar_code.1 hf.isScalar_code.2 []
    rw [List.append_nil, ← htail, decodeFrom_encodeCode he.isScalar_code.1 he.isScalar_code.2] at hread
    exact he.code_injective hf (List.head_eq_of_cons_eq hread)

end SliceParser.Utf8
