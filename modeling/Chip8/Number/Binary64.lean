/-! # Binary floating point, exactly

    A number with 53 significant bits is treated as the rational it is.  Arithmetic on
    such numbers is exact arithmetic followed by one rounding, to the nearest
    representable number and on a tie to the one with an even significand.

    * **`roundEven`** rounds a rational to an integer in the same way.
    * **`nearest`** rounds a rational to 53 bits, fewer below 2⁻¹⁰²², where the spacing
      stays 2⁻¹⁰⁷⁴.
    * **`round`** is the same with the limit at the top: beyond it lie the infinities.
    * **`difference`**, **`product`** and **`quotient`** are exact arithmetic and one
      rounding.  They take infinite operands too, and come to no number where those have
      no result, as an infinity less itself. -/

namespace Chip8

/-- A number, one of the two infinities, or no number. -/
inductive Extended where
  /-- A number. -/
  | finite (q : Rat)
  /-- Beyond all numbers, on one side. -/
  | infinite (negative : Bool)
  /-- No number, which is what operations without a result come to. -/
  | undefined
  deriving DecidableEq, Repr

namespace Binary64

/-- A power of two. -/
def powerOfTwo (e : Int) : Rat :=
  if 0 ≤ e then (Nat.pow 2 e.toNat : Nat) else 1 / (Nat.pow 2 (-e).toNat : Nat)

/-- The nearest integer; a half goes to the even neighbour. -/
def roundEven (q : Rat) : Int :=
  let below := q.floor
  let rest := q - below
  if rest < 1 / 2 then below
  else if 1 / 2 < rest then below + 1
  else if below % 2 = 0 then below else below + 1

/-- The spacing, as a power of two, of the numbers around a positive rational: its
    significand has 53 bits, unless that would take the spacing below 2⁻¹⁰⁷⁴. -/
def spacing (q : Rat) : Int :=
  let guess := (Nat.log2 q.num.toNat : Int) - Nat.log2 q.den
  let top := if powerOfTwo guess ≤ q then guess else guess - 1
  max (top - 52) (-1074)

/-- The nearest representable number. -/
def nearest (q : Rat) : Rat :=
  if q = 0 then 0
  else
    let unit := powerOfTwo (spacing q.abs)
    roundEven (q / unit) * unit

/-- The magnitude from which on the nearest number is no finite one. -/
def overflow : Rat := powerOfTwo 1024 - powerOfTwo 970

/-- The nearest representable number, or the infinity on its side. -/
def round (q : Rat) : Extended :=
  if overflow ≤ q.abs then .infinite (q < 0) else .finite (nearest q)

/-- The difference; infinities on one side have none. -/
def difference : Extended → Extended → Extended
  | .finite p,   .finite q   => round (p - q)
  | .infinite s, .finite _   => .infinite s
  | .finite _,   .infinite t => .infinite (!t)
  | .infinite s, .infinite t => if s = t then .undefined else .infinite s
  | _,           _           => .undefined

/-- The product; zero and an infinity have none. -/
def product : Extended → Extended → Extended
  | .finite p,   .finite q   => round (p * q)
  | .infinite s, .finite q   => if q = 0 then .undefined else .infinite (s != decide (q < 0))
  | .finite p,   .infinite t => if p = 0 then .undefined else .infinite (decide (p < 0) != t)
  | .infinite s, .infinite t => .infinite (s != t)
  | _,           _           => .undefined

/-- The quotient by anything but zero; two infinities have none. -/
def quotient : Extended → Extended → Extended
  | .finite p,   .finite q   => round (p / q)
  | .finite _,   .infinite _ => .finite 0
  | .infinite s, .finite q   => .infinite (s != decide (q < 0))
  | _,           _           => .undefined

/-- An integer toward zero from a rational. -/
def truncate (q : Rat) : Int :=
  if q < 0 then -((-q).floor) else q.floor

/-- An integer is its own nearest integer. -/
theorem roundEven_intCast (n : Int) : roundEven (n : Rat) = n := by
  have h : ((n : Rat) - (n : Rat)) < 1 / 2 := by rw [Rat.sub_self]; decide +kernel
  simp only [roundEven, Rat.floor_intCast, if_pos h]

end Binary64

end Chip8
