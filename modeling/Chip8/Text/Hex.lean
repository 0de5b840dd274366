/-! # Hexadecimal numerals

    Numerals in base sixteen with the capital digits `A` to `F`.  Any integer has
    one: the sign stands first, and padding zeros go between the sign and the
    digits, so that sign, zeros and digits together fill the asked width. -/

namespace Chip8.Hex

/-- The digit of a value below sixteen. -/
def digit (n : Nat) : Char :=
  if n < 10 then Char.ofNat (48 + n) else Char.ofNat (55 + n)

/-- The digits of a natural number, the most significant first. -/
def digits (n : Nat) : List Char :=
  if n < 16 then [digit n] else digits (n / 16) ++ [digit (n % 16)]

/-- The numeral of an integer as characters, at least `width` of them. -/
def paddedChars (width : Nat) (i : Int) : List Char :=
  let body := digits i.natAbs
  let sign := if i < 0 then ['-'] else []
  sign ++ List.replicate (width - (sign.length + body.length)) '0' ++ body

/-- The numeral of an integer, at least `width` characters wide. -/
def padded (width : Nat) (i : Int) : String :=
  String.ofList (paddedChars width i)

theorem digits_of_lt {n : Nat} (h : n < 16) : digits n = [digit n] := by
  rw [digits, if_pos h]

theorem digits_of_le {n : Nat} (h : 16 ≤ n) :
    digits n = digits (n / 16) ++ [digit (n % 16)] := by
  rw [digits, if_neg (by omega)]

end Chip8.Hex
