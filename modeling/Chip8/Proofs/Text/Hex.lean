import Mathlib.Algebra.Group.Nat.Defs
import Chip8.Text.Hex

/-! # Hexadecimal numerals read back

    A numeral can be read digit by digit, whatever its width: **`read_paddedChars`** says that
    this gives back the number that it was made from.  So no two numbers have the same numeral,
    and the numeral of a number that fits a width is exactly that wide
    (**`length_paddedChars`**). -/

namespace Chip8.Hex

/-- The value of a digit. -/
def digitValue (c : Char) : Nat := if c.toNat < 58 then c.toNat - 48 else c.toNat - 55

/-- The value of digits in a row, the most significant first. -/
def value (cs : List Char) : Nat := cs.foldl (fun v c => 16 * v + digitValue c) 0

/-- The integer that a numeral stands for. -/
def read (cs : List Char) : Int :=
  if cs.head? = some '-' then -(value cs.tail : Int) else value cs

/-! ## Digits -/

theorem digitValue_digit {d : Nat} (hd : d < 16) : digitValue (digit d) = d := by
  have hall : ∀ d : Fin 16, digitValue (digit d) = d := by decide
  exact hall ⟨d, hd⟩

/-- Neither the sign nor the mark behind a number is a digit. -/
theorem digit_ne {d : Nat} (hd : d < 16) : digit d ≠ '-' ∧ digit d ≠ ':' := by
  have hall : ∀ d : Fin 16, digit d ≠ '-' ∧ digit d ≠ ':' := by decide
  exact hall ⟨d, hd⟩

theorem exists_of_mem_digits {n : Nat} {c : Char} (hc : c ∈ digits n) : ∃ d < 16, c = digit d := by
  induction n using Nat.strongRecOn with
  | ind n ih =>
      by_cases hn : n < 16
      · rw [digits_of_lt hn] at hc
        exact ⟨n, hn, List.mem_singleton.1 hc⟩
      · rw [digits_of_le (Nat.not_lt.1 hn)] at hc
        rcases List.mem_append.1 hc with hc | hc
        · exact ih (n / 16) (by omega) hc
        · exact ⟨n % 16, by omega, List.mem_singleton.1 hc⟩

/-- What stands behind the sign of a numeral is digits. -/
theorem exists_of_mem_padding {k n : Nat} {c : Char}
    (hc : c ∈ List.replicate k '0' ++ digits n) : ∃ d < 16, c = digit d := by
  rcases List.mem_append.1 hc with hc | hc
  · exact ⟨0, by decide, List.eq_of_mem_replicate hc⟩
  · exact exists_of_mem_digits hc

theorem value_append_digit (cs : List Char) {d : Nat} (hd : d < 16) :
    value (cs ++ [digit d]) = 16 * value cs + d := by
  rw [value, List.foldl_append, List.foldl_cons, List.foldl_nil, digitValue_digit hd]
  rfl

theorem value_digits (n : Nat) : value (digits n) = n := by
  induction n using Nat.strongRecOn with
  | ind n ih =>
      by_cases hn : n < 16
      · rw [digits_of_lt hn]
        exact (value_append_digit [] hn).trans (Nat.zero_add n)
      · rw [digits_of_le (Nat.not_lt.1 hn), value_append_digit _ (by omega), ih _ (by omega)]
        omega

/-- Zeros in front count for nothing. -/
theorem value_padding (k : Nat) (cs : List Char) :
    value (List.replicate k '0' ++ cs) = value cs := by
  induction k with
  | zero => rfl
  | succ k ih => exact ih

/-! ## Numerals -/

theorem paddedChars_of_neg (width : Nat) {i : Int} (hi : i < 0) :
    paddedChars width i = '-' ::
      (List.replicate (width - (1 + (digits i.natAbs).length)) '0' ++ digits i.natAbs) := by
  simp only [paddedChars, if_pos hi, List.length_singleton, List.singleton_append]
  rfl

theorem paddedChars_natCast (width n : Nat) :
    paddedChars width n = List.replicate (width - (digits n).length) '0' ++ digits n := by
  have hi : ¬ (n : Int) < 0 := by omega
  simp only [paddedChars, if_neg hi, Int.natAbs_natCast, List.length_nil, List.nil_append,
    Nat.zero_add]

/-- **A NUMERAL IS READ BACK.** -/
theorem read_paddedChars (width : Nat) (i : Int) : read (paddedChars width i) = i := by
  by_cases hi : i < 0
  · rw [paddedChars_of_neg width hi, read, List.head?_cons, if_pos rfl, List.tail_cons,
      value_padding, value_digits]
    omega
  · obtain ⟨n, rfl⟩ := Int.eq_ofNat_of_zero_le (Int.not_lt.1 hi)
    -- without a sign it begins with a digit, which is not taken for one
    have hsign : (paddedChars width n).head? ≠ some '-' := by
      intro hhead
      rw [paddedChars_natCast] at hhead
      obtain ⟨d, hd, hc⟩ := exists_of_mem_padding (List.mem_of_mem_head? hhead)
      exact (digit_ne hd).1 hc.symm
    rw [read, if_neg hsign, paddedChars_natCast, value_padding, value_digits]

theorem paddedChars_injective (width : Nat) : Function.Injective (paddedChars width) :=
  Function.LeftInverse.injective (read_paddedChars width)

theorem colon_notMem_paddedChars (width : Nat) (i : Int) : ':' ∉ paddedChars width i := by
  have hdigits {k n : Nat} : ':' ∉ List.replicate k '0' ++ digits n := by
    intro hmem
    obtain ⟨d, hd, hc⟩ := exists_of_mem_padding hmem
    exact (digit_ne hd).2 hc.symm
  by_cases hi : i < 0
  · rw [paddedChars_of_neg width hi, List.mem_cons, not_or]
    exact ⟨by decide, hdigits⟩
  · obtain ⟨n, rfl⟩ := Int.eq_ofNat_of_zero_le (Int.not_lt.1 hi)
    rw [paddedChars_natCast]
    exact hdigits

/-! ## Widths -/

theorem length_digits_le {width n : Nat} (hw : 0 < width) (hn : n < 16 ^ width) :
    (digits n).length ≤ width := by
  induction width generalizing n with
  | zero => exact absurd hw (Nat.lt_irrefl 0)
  | succ k ih =>
      by_cases hone : n < 16
      · rw [digits_of_lt hone]
        exact Nat.le_add_left 1 k
      · have hk : 0 < k := by
          refine Nat.pos_of_ne_zero ?_
          rintro rfl
          exact hone hn
        have hrest : n / 16 < 16 ^ k := Nat.div_lt_of_lt_mul (Nat.pow_succ' ▸ hn)
        rw [digits_of_le (Nat.not_lt.1 hone), List.length_append, List.length_singleton]
        exact Nat.succ_le_succ (ih hk hrest)

/-- **THE NUMERAL OF A NUMBER THAT FITS A WIDTH IS THAT WIDE.** -/
theorem length_paddedChars {width n : Nat} (hw : 0 < width) (hn : n < 16 ^ width) :
    (paddedChars width n).length = width := by
  have hle := length_digits_le hw hn
  rw [paddedChars_natCast, List.length_append, List.length_replicate]
  omega

end Chip8.Hex
