import Mathlib.Algebra.Order.Ring.Int
import Mathlib.Data.Int.DivMod

/-!
# Aligned windows of time

Time is cut into windows of equal size that start at the multiples of the size.
-/

namespace ClusteredPoller.Library.Windows

variable {size number time first second : Int}

/-- The time lies in the window with the number. -/
def InWindow (size number time : Int) : Prop := number * size ≤ time ∧ time < (number + 1) * size

/-- The two times lie in one window. -/
def SameWindow (size first second : Int) : Prop :=
  ∃ number, InWindow size number first ∧ InWindow size number second

/-- The start of the window behind the one of a time. -/
def nextStart (size time : Int) : Int := (time / size + 1) * size

theorem inWindow_iff (hsize : 0 < size) : InWindow size number time ↔ time / size = number := by
  constructor
  · rintro ⟨hlower, hupper⟩
    have hle : number ≤ time / size := (Int.le_ediv_iff_mul_le hsize).mpr hlower
    have hlt : time / size < number + 1 := (Int.ediv_lt_iff_lt_mul hsize).mpr hupper
    omega
  · rintro rfl
    constructor
    · exact (Int.le_ediv_iff_mul_le hsize).mp (Int.le_refl _)
    · exact (Int.ediv_lt_iff_lt_mul hsize).mp (Int.lt_succ _)

theorem sameWindow_iff (hsize : 0 < size) :
    SameWindow size first second ↔ first / size = second / size := by
  simp only [SameWindow, inWindow_iff hsize]
  constructor
  · rintro ⟨number, rfl, hsecond⟩
    exact hsecond.symm
  · exact fun heq => ⟨_, rfl, heq.symm⟩

/-- A later time has come to the next window exactly if it is in another one. -/
theorem nextStart_le_iff (hsize : 0 < size) (hle : first ≤ second) :
    nextStart size first ≤ second ↔ ¬ SameWindow size first second := by
  have hmono : first / size ≤ second / size := Int.ediv_le_ediv hsize hle
  rw [sameWindow_iff hsize, nextStart, ← Int.le_ediv_iff_mul_le hsize]
  omega

/-- Times that come before the last one are not in the window of a time that
the last one is not in. -/
theorem not_sameWindow_of_le (hsize : 0 < size) (hfirst : time ≤ first) (hle : first ≤ second)
    (hother : ¬ SameWindow size first second) : ¬ SameWindow size time second := by
  have hbefore : time / size ≤ first / size := Int.ediv_le_ediv hsize hfirst
  have hmono : first / size ≤ second / size := Int.ediv_le_ediv hsize hle
  rw [sameWindow_iff hsize] at hother ⊢
  omega

end ClusteredPoller.Library.Windows
