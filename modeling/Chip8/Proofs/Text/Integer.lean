import Mathlib.Data.List.TakeWhile
import Chip8.Text.Integer

/-! # Decimals read back

    The decimals of an integer are the digits of its magnitude, with a hyphen before them if it
    is negative.  They hold no blank, so nothing is stripped from them, and no underscore, so
    their digits are read one after the other: **`read?_toString`** says that what is read is
    the integer again, as long as there are no more digits than are read at all
    (**`IsShort`**). -/

namespace Chip8.Integer

/-- The digits of an integer are no more than are read. -/
def IsShort (n : Int) : Prop := (Nat.toDigits 10 n.natAbs).length ≤ digitLimit

instance (n : Int) : Decidable (IsShort n) := inferInstanceAs (Decidable (_ ≤ _))

/-! ## Digits -/

theorem isDigit_of_mem {n : Nat} {c : Char} (hc : c ∈ Nat.toDigits 10 n) : c.isDigit :=
  Nat.isDigit_of_mem_toDigits (by decide) (by decide) hc

theorem toNat_of_isDigit {c : Char} (hc : c.isDigit) : 48 ≤ c.toNat ∧ c.toNat ≤ 57 := by
  simpa [Char.isDigit, UInt32.le_iff_toNat_le] using hc

theorem value?_of_isDigit {c : Char} (hc : c.isDigit) :
    Digit.value? c = some (c.toNat - 48) := by
  obtain ⟨hlow, hhigh⟩ := toNat_of_isDigit hc
  have hrow : (decide (0x30 ≤ c.toNat) && decide (c.toNat < 0x30 + 10)) = true := by
    simp only [Bool.and_eq_true, decide_eq_true_eq]
    omega
  rw [Digit.value?, Digit.zeros, List.find?_cons_of_pos (by exact hrow)]
  rfl

theorem digit_of_isDigit {c : Char} (hc : c.isDigit) : Digit.isDigit c = true := by
  rw [Digit.isDigit, value?_of_isDigit hc]
  rfl

theorem isBlank_of_isDigit {c : Char} (hc : c.isDigit) : Digit.isBlank c = false := by
  have hcode := toNat_of_isDigit hc
  simp only [Digit.isBlank, Bool.or_eq_false_iff, Bool.and_eq_false_iff, decide_eq_false_iff_not,
    beq_eq_false_iff_ne]
  omega

theorem digitValues?_cons_cons {c d : Char} {cs : List Char} (hd : d ≠ '_') :
    digitValues? (c :: d :: cs) =
      (Digit.value? c).bind fun v => (digitValues? (d :: cs)).map (v :: ·) := by
  rw [digitValues?.eq_def]
  split
  case h_1 heq => cases heq
  case h_2 heq => cases heq
  case h_3 heq => exact absurd (List.cons.inj (List.cons.inj heq).2).1 hd
  case h_4 heq =>
      cases heq
      cases Digit.value? c <;> cases digitValues? (d :: cs) <;> rfl

/-- Digits in a row have their values in a row. -/
theorem digitValues?_of_isDigit {cs : List Char} (hne : cs ≠ []) (hcs : ∀ c ∈ cs, c.isDigit) :
    digitValues? cs = some (cs.map (·.toNat - 48)) := by
  induction cs with
  | nil => exact absurd rfl hne
  | cons c cs ih =>
      obtain ⟨hc, hrest⟩ := List.forall_mem_cons.1 hcs
      cases cs with
      | nil =>
          rw [digitValues?, value?_of_isDigit hc]
          rfl
      | cons d ds =>
          -- an underscore in second place would be skipped
          have hd : d ≠ '_' := by
            rintro rfl
            exact absurd (hrest '_' List.mem_cons_self) (by decide)
          rw [digitValues?_cons_cons hd, value?_of_isDigit hc, ih (List.cons_ne_nil d ds) hrest]
          rfl

theorem natural?_toDigits {n : Nat} (hshort : (Nat.toDigits 10 n).length ≤ digitLimit) :
    natural? (Nat.toDigits 10 n) = some n := by
  have hvalues : digitValues? (Nat.toDigits 10 n) =
      some ((Nat.toDigits 10 n).map (·.toNat - 48)) :=
    digitValues?_of_isDigit Nat.toDigits_ne_nil fun c => isDigit_of_mem
  have hvalue : ofDigits ((Nat.toDigits 10 n).map (·.toNat - 48)) = n := by
    rw [ofDigits, List.foldl_map]
    exact Nat.ofDigitChars_ten_toDigits
  rw [natural?, hvalues]
  show (if (List.map _ _).length ≤ digitLimit then _ else none) = _
  rw [List.length_map, if_pos hshort, hvalue]

/-! ## Decimals -/

/-- The characters of decimals. -/
theorem toList_toString (n : Int) :
    (toString n).toList =
      (if n < 0 then ['-'] else []) ++ Nat.toDigits 10 n.natAbs := by
  by_cases hneg : n < 0
  · have habs : (-n).toNat = n.natAbs := by omega
    simp [Int.repr_eq_if, hneg, Int.not_le.2 hneg, habs]
  · have habs : n.toNat = n.natAbs := by omega
    simp [Int.repr_eq_if, hneg, Int.not_lt.1 hneg, habs]

theorem strip_of_no_blank {cs : List Char} (h : ∀ c ∈ cs, Digit.isBlank c = false) :
    strip cs = cs := by
  have hkept {cs : List Char} (h : ∀ c ∈ cs, Digit.isBlank c = false) :
      cs.dropWhile Digit.isBlank = cs :=
    List.dropWhile_eq_self_iff.2 fun hl => by simp [h _ (List.getElem_mem hl)]
  rw [strip, hkept h, hkept fun c hc => h c (List.mem_reverse.1 hc), List.reverse_reverse]

/-- **THE DECIMALS OF AN INTEGER ARE READ BACK.** -/
theorem read?_toString {n : Int} (hshort : IsShort n) : read? (toString n) = some n := by
  have hmagnitude : natural? (Nat.toDigits 10 n.natAbs) = some n.natAbs :=
    natural?_toDigits hshort
  by_cases hneg : n < 0
  · have hstrip : strip (toString n).toList = '-' :: Nat.toDigits 10 n.natAbs := by
      rw [toList_toString, if_pos hneg]
      exact strip_of_no_blank
        (List.forall_mem_cons.2 ⟨by decide, fun c hc => isBlank_of_isDigit (isDigit_of_mem hc)⟩)
    simp only [read?, hstrip, hmagnitude, Option.pure_def, Option.bind_eq_bind,
      Option.bind_some, Option.map_some, Option.some.injEq]
    omega
  · have hstrip : strip (toString n).toList = Nat.toDigits 10 n.natAbs := by
      rw [toList_toString, if_neg hneg]
      exact strip_of_no_blank fun c hc => isBlank_of_isDigit (isDigit_of_mem hc)
    rw [read?, hstrip]
    split
    -- a digit is no sign
    case h_1 heq => exact absurd (isDigit_of_mem (heq ▸ List.mem_cons_self)) (by decide)
    case h_2 heq => exact absurd (isDigit_of_mem (heq ▸ List.mem_cons_self)) (by decide)
    case h_3 =>
      rw [hmagnitude, Option.map_some]
      exact congrArg some (Int.natAbs_of_nonneg (Int.not_lt.1 hneg))

end Chip8.Integer
