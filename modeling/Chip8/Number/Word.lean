/-! # Machine words

    Addresses, sides and scales are counted in machine words: integers of 64 bits, one of
    them for the sign.

    * **`holds`** says whether an integer is a word.
    * **`wrap`** is the word that is left of an integer when all higher bits are lost. -/

namespace Chip8.Word

/-- The number of words on each side of zero. -/
def reach : Int := 9223372036854775808

/-- Whether an integer is a word. -/
def holds (n : Int) : Bool := -reach ≤ n && n < reach

/-- The word that is left of an integer when all higher bits are lost. -/
def wrap (n : Int) : Int := Int.bmod n 18446744073709551616

theorem holds_iff (n : Int) : holds n = true ↔ -reach ≤ n ∧ n < reach := by
  simp [holds]

/-- What is left is a word. -/
theorem holds_wrap (n : Int) : holds (wrap n) = true := by
  rw [holds_iff]
  unfold wrap reach
  have hlow := Int.le_bmod (x := n) (show 0 < 18446744073709551616 by omega)
  have hhigh := Int.bmod_lt (x := n) (show 0 < 18446744073709551616 by omega)
  omega

/-- A word is left as it is. -/
theorem wrap_of_holds {n : Int} (h : holds n = true) : wrap n = n := by
  rw [holds_iff] at h
  unfold reach at h
  exact Int.bmod_eq_of_le_mul_two (by omega) (by omega)

end Chip8.Word
