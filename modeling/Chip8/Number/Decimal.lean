import Chip8.Number.Binary64

/-!
# Decimal text of binary numbers

* **`shortest`** writes a binary number with the fewest decimal digits that read back
  as the same number, and of those with the closest.  Small and large magnitudes get an
  exponent, the others are written out, always with a point.
* **`fixed`** writes a rational with a given number of places, correctly rounded; an
  exact half goes to the even neighbour.
-/

namespace Chip8.Decimal

open Binary64

/-- A power of ten. -/
def powerOfTen (e : Int) : Rat :=
  if 0 ≤ e then (Nat.pow 10 e.toNat : Nat) else 1 / (Nat.pow 10 (-e).toNat : Nat)

/-- The digits of a natural number. -/
def digits (n : Nat) : List Char := Nat.toDigits 10 n

/-- A positive decimal number: `coefficient · 10 ^ exponent`. -/
structure Scaled where
  coefficient : Nat
  exponent : Int
  deriving DecidableEq, Repr

/-- The value of a decimal number. -/
def Scaled.value (d : Scaled) : Rat := (d.coefficient : Rat) * powerOfTen d.exponent

/-- The same number without zeros at the end of its coefficient. -/
def Scaled.trim (d : Scaled) : Scaled :=
  if h : d.coefficient = 0 then ⟨0, 0⟩
  else if d.coefficient % 10 = 0 then
    Scaled.trim ⟨d.coefficient / 10, d.exponent + 1⟩
  else d
termination_by d.coefficient
decreasing_by omega

/-- The exponent of the first digit of a positive rational. -/
def leading (q : Rat) : Int :=
  let guess := ((digits q.num.toNat).length : Int) - (digits q.den).length
  if powerOfTen guess ≤ q then guess else guess - 1

/-- Whether a decimal number rounds to the positive binary number `q`.  The ends of the
    interval of numbers that do belong to it just if the significand of `q` is even; the
    interval is shorter below a power of two. -/
def readsBack (q : Rat) (d : Scaled) : Bool :=
  let e := spacing q
  let unit := powerOfTwo e
  let significand := (q / unit).floor
  let below := if significand = 4503599627370496 ∧ -1074 < e then unit / 4 else unit / 2
  let low := q - below
  let high := q + unit / 2
  let v := d.value
  if significand % 2 = 0 then low ≤ v && v ≤ high else low < v && v < high

/-- The closer of the two neighbours of `q` with `count` digits that reads back as `q`. -/
def withDigits (q : Rat) (count : Nat) : Option Scaled :=
  let exponent := leading q + 1 - count
  let unit := powerOfTen exponent
  let below := (q / unit).floor
  let first : Scaled := ⟨below.toNat, exponent⟩
  let second : Scaled := ⟨below.toNat + 1, exponent⟩
  let rest := q / unit - below
  match readsBack q first, readsBack q second with
  | true,  false => some first
  | false, true  => some second
  | false, false => none
  | true,  true  =>
      if rest < 1 / 2 then some first
      else if 1 / 2 < rest then some second
      else if below % 2 = 0 then some first else some second

/-- The shortest decimal number that reads back as the positive binary number `q`;
    seventeen digits always do. -/
def shortestScaled (q : Rat) : Scaled :=
  (((List.range' 1 17).findSome? (withDigits q)).getD
    ⟨(q / powerOfTen (leading q - 16)).floor.toNat, leading q - 16⟩).trim

/-- How a shortest decimal is laid out. -/
structure Layout where
  /-- The least place of the point, relative to the first digit, written out. -/
  lowest : Int
  /-- The greatest place of the point written out. -/
  highest : Int
  /-- The least number of digits of an exponent. -/
  exponentDigits : Nat
  deriving DecidableEq, Repr

/-- Numbers from `0.0001` up to sixteen digits before the point are written out. -/
def layout : Layout := ⟨-3, 16, 2⟩

/-- A positive decimal number in a layout. -/
def Scaled.text (how : Layout) (d : Scaled) : List Char :=
  let ds := digits d.coefficient
  let point := (ds.length : Int) + d.exponent
  if point < how.lowest ∨ how.highest < point then
    let e := point - 1
    let es := digits e.natAbs
    let fraction := ds.drop 1
    ds.take 1 ++ (if fraction.isEmpty then [] else '.' :: fraction)
      ++ 'e' :: (if e < 0 then '-' else '+')
      :: (List.replicate (how.exponentDigits - es.length) '0' ++ es)
  else if point ≤ 0 then '0' :: '.' :: (List.replicate (-point).toNat '0' ++ ds)
  else if ds.length ≤ point.toNat then
    ds ++ List.replicate (point.toNat - ds.length) '0' ++ ['.', '0']
  else ds.take point.toNat ++ '.' :: ds.drop point.toNat

/-- The shortest text of a binary number. -/
def shortest (q : Rat) : String :=
  if q = 0 then "0.0"
  else
    String.ofList ((if q < 0 then ['-'] else []) ++ (shortestScaled q.abs).text layout)

/-- The text of a rational with a fixed number of places. -/
def fixed (places : Nat) (q : Rat) : String :=
  let ds := digits (roundEven (q.abs * powerOfTen places)).toNat
  let ds := List.replicate (places + 1 - ds.length) '0' ++ ds
  let whole := ds.take (ds.length - places)
  let fraction := ds.drop (ds.length - places)
  String.ofList ((if q < 0 then ['-'] else []) ++ whole
    ++ if fraction.isEmpty then [] else '.' :: fraction)

end Chip8.Decimal
