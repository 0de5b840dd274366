import Chip8.Number.Decimal

/-!
# Quantities

A quantity given from outside is a whole number of any size or a binary number.  Two
quantities are the same when their values are the same number or infinity, so `440` and
`440.0` are the same quantity written in two ways; each keeps its own text.

Whole numbers are multiplied exactly, and divided into the binary number nearest to the
quotient.  As soon as one operand is a binary number, the other becomes one first, if it
is not too large for that.
-/

namespace Chip8

/-- A number as it was given. -/
inductive Quantity where
  /-- A whole number. -/
  | whole (n : Int)
  /-- A binary number, an infinity, or no number. -/
  | real (x : Extended)
  /-- The binary zero that is written with a sign. -/
  | negativeZero
  deriving Repr

namespace Quantity

/-- The number itself. -/
def value : Quantity → Extended
  | .whole n      => .finite n
  | .real x       => x
  | .negativeZero => .finite 0

/-- Quantities are compared by value; what is no number is not even the same as itself. -/
instance : BEq Quantity := ⟨fun a b => a.value = b.value ∧ a.value ≠ .undefined⟩

/-- The binary quantity nearest to a rational.  A negative one too small for any other
    keeps its sign. -/
def ofRat (q : Rat) : Quantity :=
  match Binary64.round q with
  | .finite r => if r = 0 ∧ q < 0 then .negativeZero else .real (.finite r)
  | x         => .real x

/-- The text of a quantity: a binary number always shows a point or an exponent. -/
def text : Quantity → String
  | .whole n                => toString n
  | .real (.finite q)       => Decimal.shortest q
  | .real (.infinite false) => "inf"
  | .real (.infinite true)  => "-inf"
  | .real .undefined        => "nan"
  | .negativeZero           => "-" ++ Decimal.shortest 0

/-! ## Arithmetic -/

/-- Why arithmetic on quantities comes to nothing. -/
inductive Error where
  /-- The divisor is zero. -/
  | zeroDivisor
  /-- A whole number is too large to become a binary number. -/
  | tooLarge
  /-- The quotient of two whole numbers is too large for a binary number. -/
  | quotientTooLarge
  /-- What is no number has no whole part. -/
  | undefined
  /-- An infinity has no whole part. -/
  | infinite
  deriving DecidableEq, Repr

/-- A quantity as a binary number. -/
def binary (a : Quantity) : Except Error Extended :=
  match a with
  | .whole n =>
      match Binary64.round n with
      | .finite q => .ok (.finite q)
      | _         => .error .tooLarge
  | _ => .ok a.value

/-- One quantity times another. -/
def times : Quantity → Quantity → Except Error Quantity
  | .whole m, .whole n => .ok (.whole (m * n))
  | a, b               => do return .real (Binary64.product (← a.binary) (← b.binary))

/-- One quantity over another. -/
def dividedBy : Quantity → Quantity → Except Error Quantity
  | .whole m, .whole n =>
      if n = 0 then .error .zeroDivisor
      else
        match Binary64.round ((m : Rat) / n) with
        | .finite q => .ok (.real (.finite q))
        | _         => .error .quotientTooLarge
  | a, b => do
      let x ← a.binary
      let y ← b.binary
      if y = .finite 0 then throw .zeroDivisor
      return .real (Binary64.quotient x y)

/-- The whole part, toward zero. -/
def wholePart (a : Quantity) : Except Error Int :=
  match a, a.value with
  | .whole n, _           => .ok n
  | _,        .finite q   => .ok (Binary64.truncate q)
  | _,        .infinite _ => .error .infinite
  | _,        .undefined  => .error .undefined

/-! ## Comparison -/

theorem beq_iff (a b : Quantity) :
    (a == b) = true ↔ a.value = b.value ∧ a.value ≠ .undefined := by
  show decide (a.value = b.value ∧ a.value ≠ .undefined) = true ↔ _
  exact decide_eq_true_iff

/-- A quantity is the same as itself just if it is a number or an infinity. -/
theorem beq_self_iff (a : Quantity) : (a == a) = true ↔ a.value ≠ .undefined := by
  simp [beq_iff]

/-- Whole quantities are the same only if they are equal. -/
theorem whole_beq_whole (m n : Int) : (whole m == whole n) = true ↔ m = n := by
  rw [beq_iff]
  show Extended.finite m = Extended.finite n ∧ Extended.finite m ≠ .undefined ↔ m = n
  simp

end Quantity

end Chip8
