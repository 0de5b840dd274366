import Chip8.Text.Digit

/-!
# Reading integers

An integer is written as an optional sign and decimal digits of any script, with blanks
allowed around it and single underscores between digits.  Zeros in front mean nothing.
Numerals of more than 4300 digits are refused.
-/

namespace Chip8.Integer

/-- The greatest number of digits that is read. -/
def digitLimit : Nat := 4300

/-- The values of the digits of a numeral: they must start with a digit, and an underscore
    must stand between two digits. -/
def digitValues? : List Char → Option (List Nat)
  | []                => none
  | [c]               => (Digit.value? c).map ([·])
  | c :: '_' :: rest  => do
      let v ← Digit.value? c
      return v :: (← digitValues? rest)
  | c :: rest         => do
      let v ← Digit.value? c
      return v :: (← digitValues? rest)

/-- The number that digits write, most significant first. -/
def ofDigits (ds : List Nat) : Nat := ds.foldl (fun acc d => 10 * acc + d) 0

/-- The natural number that a numeral without sign writes. -/
def natural? (cs : List Char) : Option Nat := do
  let ds ← digitValues? cs
  if ds.length ≤ digitLimit then some (ofDigits ds) else none

/-- Characters without the blanks at both ends. -/
def strip (cs : List Char) : List Char :=
  ((cs.dropWhile Digit.isBlank).reverse.dropWhile Digit.isBlank).reverse

/-- The integer that a text writes, if it writes one. -/
def read? (s : String) : Option Int :=
  match strip s.toList with
  | '-' :: rest => (natural? rest).map fun n => -(n : Int)
  | '+' :: rest => (natural? rest).map Int.ofNat
  | cs          => (natural? cs).map Int.ofNat

end Chip8.Integer
