import Mathlib.Algebra.Ring.Nat

/-!
# Rounding to binary digits

A binary floating-point number has so many digits and, behind them, zeros.  A
natural number is rounded to the nearest such number, of two that are equally
near to the one with the even digits.
-/

namespace ClusteredPoller.Library.Rounding

/-- The multiple of the unit next to a number, an even one if there are two. -/
def nearestMultiple (unit number : Nat) : Nat :=
  let quotient := number / unit
  let rest := number % unit
  if 2 * rest < unit ∨ (2 * rest = unit ∧ quotient % 2 = 0) then quotient * unit
  else (quotient + 1) * unit

/-- What the last of the digits counts. -/
def lastUnit (digits number : Nat) : Nat := 2 ^ (number.log2 + 1 - digits)

def roundToDigits (digits number : Nat) : Nat := nearestMultiple (lastUnit digits number) number

/-- The nearest multiple is half a unit away at most. -/
theorem nearestMultiple_near {unit : Nat} (hunit : 0 < unit) (number : Nat) :
    2 * number ≤ 2 * nearestMultiple unit number + unit ∧
      2 * nearestMultiple unit number ≤ 2 * number + unit := by
  have hnumber := Nat.div_add_mod' number unit
  have hrest := Nat.mod_lt number hunit
  unfold nearestMultiple
  dsimp only
  split
  · omega
  · rw [Nat.succ_mul (number / unit)]
    omega

theorem nearestMultiple_one (number : Nat) : nearestMultiple 1 number = number := by
  rw [nearestMultiple]
  simp [Nat.mod_one]

theorem nearestMultiple_zero {unit : Nat} (hunit : 0 < unit) : nearestMultiple unit 0 = 0 := by
  rw [nearestMultiple]
  simp [hunit]

/-- A number with no more digits stays as it is. -/
theorem roundToDigits_of_lt {digits number : Nat} (hnumber : number < 2 ^ digits) :
    roundToDigits digits number = number := by
  rcases Nat.eq_zero_or_pos number with rfl | hpos
  · exact nearestMultiple_zero (Nat.two_pow_pos _)
  · have hlog := (Nat.log2_lt (Nat.ne_of_gt hpos)).mpr hnumber
    rw [roundToDigits, lastUnit, Nat.sub_eq_zero_of_le hlog, Nat.pow_zero, nearestMultiple_one]

/-- A unit is at most the part of the number that the digits leave. -/
theorem lastUnit_le {digits number : Nat} (hnumber : 2 ^ digits ≤ number) :
    2 ^ digits * lastUnit digits number ≤ 2 * number := by
  have hpos : number ≠ 0 := Nat.ne_of_gt (Nat.lt_of_lt_of_le (Nat.two_pow_pos digits) hnumber)
  have hdigits : digits ≤ number.log2 := (Nat.le_log2 hpos).mpr hnumber
  have hlog : 2 ^ number.log2 ≤ number := Nat.log2_self_le hpos
  calc 2 ^ digits * lastUnit digits number = 2 ^ (digits + (number.log2 + 1 - digits)) :=
        (Nat.pow_add 2 _ _).symm
    _ = 2 ^ (number.log2 + 1) := by rw [Nat.add_sub_cancel' (Nat.le_succ_of_le hdigits)]
    _ = 2 * 2 ^ number.log2 := by rw [Nat.pow_succ, Nat.mul_comm]
    _ ≤ 2 * number := Nat.mul_le_mul_left 2 hlog

/-- The relative error is at most one in two to the number of digits. -/
theorem roundToDigits_near (digits number : Nat) :
    2 ^ digits * number ≤ 2 ^ digits * roundToDigits digits number + number ∧
      2 ^ digits * roundToDigits digits number ≤ 2 ^ digits * number + number := by
  rcases Nat.lt_or_ge number (2 ^ digits) with hsmall | hlarge
  · rw [roundToDigits_of_lt hsmall]
    exact ⟨Nat.le_add_right _ _, Nat.le_add_right _ _⟩
  · have hunit := lastUnit_le hlarge
    have hpos : 0 < lastUnit digits number := Nat.two_pow_pos _
    obtain ⟨hbelow, habove⟩ := nearestMultiple_near hpos number
    have hbelow := Nat.mul_le_mul_left (2 ^ digits) hbelow
    have habove := Nat.mul_le_mul_left (2 ^ digits) habove
    rw [Nat.mul_add, Nat.mul_left_comm _ 2, Nat.mul_left_comm _ 2] at hbelow habove
    unfold roundToDigits
    omega

end ClusteredPoller.Library.Rounding
