import Chip8.Settings
import Mathlib.Algebra.Order.Field.Rat
import Mathlib.Algebra.Order.Field.Power
import Mathlib.Tactic.Positivity

/-! # The interval between two frames

    Frames come at a rate that is a whole number, and the host is told the seconds between
    them, which is a binary number.  The rate becomes one first.  A positive rate never
    rounds to zero (**`nearest_natCast_pos`**), so it has an interval unless it is beyond all
    binary numbers (**`interval_eq`**). -/

namespace Chip8

namespace Binary64

theorem powerOfTwo_eq_zpow (e : Int) : powerOfTwo e = (2 : Rat) ^ e := by
  by_cases he : 0 ≤ e
  · obtain ⟨n, rfl⟩ := Int.eq_ofNat_of_zero_le he
    rw [powerOfTwo, if_pos he, Int.toNat_natCast, zpow_natCast]
    exact Nat.cast_pow 2 n
  · obtain ⟨n, hn⟩ := Int.eq_ofNat_of_zero_le (show 0 ≤ -e by omega)
    obtain rfl : e = -(n : Int) := by omega
    rw [powerOfTwo, if_neg he, neg_neg, Int.toNat_natCast, zpow_neg, zpow_natCast, one_div]
    exact congrArg (·⁻¹) (Nat.cast_pow 2 n)

theorem powerOfTwo_pos (e : Int) : 0 < powerOfTwo e := by
  rw [powerOfTwo_eq_zpow]
  positivity

theorem powerOfTwo_le {d e : Int} (h : d ≤ e) : powerOfTwo d ≤ powerOfTwo e := by
  rw [powerOfTwo_eq_zpow, powerOfTwo_eq_zpow]
  exact zpow_le_zpow_right₀ (by decide) h

theorem roundEven_pos {q : Rat} (h : 1 ≤ q) : 0 < roundEven q := by
  have hfloor : 1 ≤ q.floor := Rat.le_floor_iff.2 h
  simp only [roundEven]
  split_ifs <;> omega

/-- The binary numbers around a positive integer lie no farther apart than it does from zero. -/
theorem powerOfTwo_spacing_le {n : Nat} (h : 0 < n) : powerOfTwo (spacing (n : Rat)) ≤ n := by
  have hlog : powerOfTwo (Nat.log2 n : Int) ≤ n := by
    rw [powerOfTwo_eq_zpow, zpow_natCast]
    exact_mod_cast Nat.log2_self_le h.ne'
  have hspacing : spacing (n : Rat) = max ((Nat.log2 n : Int) - 52) (-1074) := by
    have hguess : ((Nat.log2 n : Int) - (Nat.log2 1 : Nat)) = Nat.log2 n := by
      rw [show Nat.log2 1 = 0 from rfl]
      omega
    simp only [spacing, Rat.num_natCast, Rat.den_natCast, Int.toNat_natCast, hguess, if_pos hlog]
  have hle : spacing (n : Rat) ≤ Nat.log2 n := by
    rw [hspacing]
    omega
  exact (powerOfTwo_le hle).trans hlog

/-- A positive integer does not round to zero. -/
theorem nearest_natCast_pos {n : Nat} (h : 0 < n) : 0 < nearest (n : Rat) := by
  have hpos : (0 : Rat) < n := Nat.cast_pos.2 h
  have hunit := powerOfTwo_pos (spacing (n : Rat))
  have hmany : 1 ≤ (n : Rat) / powerOfTwo (spacing (n : Rat)) :=
    (one_le_div hunit).2 (powerOfTwo_spacing_le h)
  have habs : (n : Rat).abs = n := Rat.abs_of_nonneg hpos.le
  rw [nearest, if_neg hpos.ne', habs]
  exact mul_pos (Int.cast_pos.2 (roundEven_pos hmany)) hunit

theorem round_natCast {n : Nat} :
    round (n : Rat) = if overflow ≤ n then .infinite false else .finite (nearest n) := by
  have hpos : (0 : Rat) ≤ n := Nat.cast_nonneg n
  rw [round, Rat.abs_of_nonneg hpos, decide_eq_false (not_lt.2 hpos)]

end Binary64

namespace Quantity

variable {b : Quantity}

theorem binary_whole (n : Int) :
    (whole n).binary =
      match Binary64.round n with
      | .finite q => .ok (.finite q)
      | _         => .error .tooLarge := by
  unfold binary
  rfl

theorem dividedBy_of_error {e : Error} (x : Extended) (hb : b.binary = .error e) :
    dividedBy (.real x) b = .error e := by
  show (b.binary >>= _) = _
  rw [hb]
  rfl

theorem dividedBy_of_binary {y : Extended} (x : Extended) (hb : b.binary = .ok y)
    (hy : y ≠ .finite 0) : dividedBy (.real x) b = .ok (.real (Binary64.quotient x y)) := by
  show (b.binary >>= _) = _
  rw [hb]
  show (if y = .finite 0 then _ else _) = _
  rw [if_neg hy]
  rfl

end Quantity

/-- **THE INTERVAL**: one second over the binary number nearest to the rate.  The only positive
    rates that have none are those beyond all binary numbers. -/
theorem Settings.interval_eq {s : Settings} (h : 0 < s.timerHz) :
    s.interval =
      if Binary64.overflow ≤ s.timerHz then .error .tooLarge
      else .ok (.real (Binary64.quotient (.finite 1) (.finite (Binary64.nearest s.timerHz)))) := by
  obtain ⟨n, hn⟩ := Int.eq_ofNat_of_zero_le h.le
  have hcast : (s.timerHz : Rat) = (n : Rat) := by rw [hn]; rfl
  have hnonzero : Extended.finite (Binary64.nearest n) ≠ .finite 0 := fun hzero =>
    (Binary64.nearest_natCast_pos (by omega)).ne' (Extended.finite.inj hzero)
  rw [hcast]
  by_cases hbig : Binary64.overflow ≤ (n : Rat)
  · have hbinary : (Quantity.whole s.timerHz).binary = .error .tooLarge := by
      rw [Quantity.binary_whole, hcast, Binary64.round_natCast, if_pos hbig]
    rw [if_pos hbig]
    exact Quantity.dividedBy_of_error _ hbinary
  · have hbinary : (Quantity.whole s.timerHz).binary = .ok (.finite (Binary64.nearest n)) := by
      rw [Quantity.binary_whole, hcast, Binary64.round_natCast, if_neg hbig]
    rw [if_neg hbig]
    exact Quantity.dividedBy_of_binary _ hbinary hnonzero

end Chip8
