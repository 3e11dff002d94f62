import Mathlib.Data.Nat.Basic

/-!
# Counters that wrap

A counter that counts without bound is read modulo some size.  As long as it
grows by less than the size between two readings, the growth is the difference
of the readings modulo the size.
-/

namespace ClusteredPoller.Library.WrappingCounter

/-- The forward distance from one reading to another round the circle. -/
def distance (size first second : Nat) : Nat := (second + size - first) % size

theorem distance_of_le {size first second : Nat} (hle : first ≤ second) (hsecond : second < size) :
    distance size first second = second - first := by
  have hsum : second + size - first = second - first + size := by omega
  rw [distance, hsum, Nat.add_mod_right, Nat.mod_eq_of_lt (by omega)]

theorem distance_of_lt {size first second : Nat} (hlt : second < first) (hfirst : first < size) :
    distance size first second = second + size - first :=
  Nat.mod_eq_of_lt (by omega)

/-- The readings of a counter differ by its growth. -/
theorem distance_readings {size growth : Nat} (before : Nat) (hgrowth : growth < size) :
    distance size (before % size) ((before + growth) % size) = growth := by
  have hsize : 0 < size := Nat.zero_lt_of_lt hgrowth
  have hreading := Nat.mod_lt before hsize
  have hlater : (before + growth) % size = (before % size + growth) % size :=
    (Nat.mod_add_mod before size growth).symm
  rcases Nat.lt_or_ge (before % size + growth) size with hin | hwrap
  · rw [hlater, Nat.mod_eq_of_lt hin, distance_of_le (Nat.le_add_right _ _) hin,
      Nat.add_sub_cancel_left]
  · have hwrapped : (before + growth) % size = before % size + growth - size := by
      rw [hlater, Nat.mod_eq_sub_mod hwrap, Nat.mod_eq_of_lt (by omega)]
    rw [hwrapped, distance_of_lt (by omega) hreading]
    omega

end ClusteredPoller.Library.WrappingCounter
