import Chip8.Text.Printable

/-!
# Quoted text

Text in quotes, on one line and without characters that cannot be seen.  Single quotes
enclose it, or double quotes if it holds single ones and no double ones.  The enclosing
quote and the backslash are escaped with a backslash, and so are the characters that
are not printable: tab, line feed and carriage return by a letter, the others by their
code in two, four or eight hexadecimal digits.
-/

namespace Chip8.Quoted

/-- The single quote. -/
def single : Char := '\x27'

/-- The double quote. -/
def double : Char := '\x22'

/-- The backslash. -/
def backslash : Char := '\x5c'

/-- A code point in `width` hexadecimal digits, in small letters. -/
def code (width n : Nat) : List Char :=
  let ds := Nat.toDigits 16 n
  List.replicate (width - ds.length) '0' ++ ds

/-- A character between the quotes. -/
def escape (quote c : Char) : List Char :=
  let n := c.toNat
  if c = quote ∨ c = backslash then [backslash, c]
  else if n = 0x09 then [backslash, 't']
  else if n = 0x0A then [backslash, 'n']
  else if n = 0x0D then [backslash, 'r']
  else if Printable.holds c then [c]
  else if n < 0x100 then backslash :: 'x' :: code 2 n
  else if n < 0x10000 then backslash :: 'u' :: code 4 n
  else backslash :: 'U' :: code 8 n

/-- The quote that encloses a text. -/
def enclosing (cs : List Char) : Char :=
  if cs.contains single && !cs.contains double then double else single

/-- A text in quotes. -/
def encode (s : String) : String :=
  let cs := s.toList
  let quote := enclosing cs
  String.ofList (quote :: cs.flatMap (escape quote) ++ [quote])

end Chip8.Quoted
