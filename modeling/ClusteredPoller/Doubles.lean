import ClusteredPoller.Library.Rounding

/-!
# Arithmetic in `double`

The sizes of buffers and arrays grow by a factor of 1.5, computed in `double`:
53 binary digits, rounded to nearest.
-/

namespace ClusteredPoller

open Library.Rounding (roundToDigits roundToDigits_near roundToDigits_of_lt)

/-- `size * 1.5`, converted back to an integer.  The product is a number of
halves, which the conversion cuts off. -/
def timesOneAndHalf (size : Nat) : Nat := roundToDigits 53 (3 * roundToDigits 53 size) / 2

/-- Rounding takes away less than the factor adds, for sizes of any kind. -/
theorem timesOneAndHalf_bounds (size : Nat) :
    size ≤ timesOneAndHalf size ∧ timesOneAndHalf size ≤ 2 * size := by
  obtain ⟨hbelow, habove⟩ := roundToDigits_near 53 size
  obtain ⟨hleast, hmost⟩ := roundToDigits_near 53 (3 * roundToDigits 53 size)
  unfold timesOneAndHalf
  omega

/-- No `unsigned` is rounded, and neither is its product. -/
theorem timesOneAndHalf_exact {size : Nat} (hsize : 3 * size < 2 ^ 53) :
    timesOneAndHalf size = size * 3 / 2 := by
  have hself : roundToDigits 53 size = size := roundToDigits_of_lt (by omega)
  rw [timesOneAndHalf, hself, roundToDigits_of_lt hsize, Nat.mul_comm]

end ClusteredPoller
