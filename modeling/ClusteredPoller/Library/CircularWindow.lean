import Mathlib.Data.Nat.ModEq
import Mathlib.Logic.Function.Basic

/-!
# Windows of a circular row of slots

A row of `size` slots is read as a circle.  A window is a run of consecutive
live slots that starts at some place and may wrap past the last slot; every
other slot is empty.  Because a window may be as long as the circle, its
length is not recoverable from its two ends: an empty and a full window have
the same ends, and only the first slot tells them apart.
-/

namespace ClusteredPoller.Library.CircularWindow

variable {α : Type}

/-- Places less than one revolution apart are distinct. -/
theorem offset_injective {size start first second : Nat}
    (hfirst : first < size) (hsecond : second < size)
    (heq : (start + first) % size = (start + second) % size) : first = second := by
  have hmod : first ≡ second [MOD size] := Nat.ModEq.add_left_cancel' start heq
  exact Nat.ModEq.eq_of_lt_of_lt hmod hfirst hsecond

/-- The two ends of a window meet exactly when it is empty or a whole circle. -/
theorem ends_meet_iff {size start length : Nat} (hstart : start < size)
    (hlength : length ≤ size) :
    (start + length) % size = start ↔ length = 0 ∨ length = size := by
  rcases Nat.lt_or_eq_of_le hlength with hlt | rfl
  · constructor
    · intro heq
      have hzero : (start + length) % size = (start + 0) % size := by
        rw [heq, Nat.add_zero, Nat.mod_eq_of_lt hstart]
      exact Or.inl (offset_injective hlt (Nat.zero_lt_of_lt hlt) hzero)
    · rintro (rfl | rfl)
      · exact Nat.mod_eq_of_lt hstart
      · exact absurd hlt (Nat.lt_irrefl _)
  · simp [Nat.mod_eq_of_lt hstart]

/-- The live items, oldest first, fill the slots from `start` on, and every
slot of the circle that is not one of theirs is empty. -/
structure Window (slots : Nat → Option α) (size start : Nat) (live : List α) : Prop where
  fits : live.length ≤ size
  holds : ∀ offset < size, slots ((start + offset) % size) = live[offset]?

namespace Window

variable {slots : Nat → Option α} {size start : Nat} {live : List α}

theorem empty (size start : Nat) : Window (fun _ => (none : Option α)) size start [] :=
  ⟨Nat.zero_le _, fun _ _ => rfl⟩

/-- The slot at the start holds the oldest item, if there is one. -/
theorem front (window : Window slots size start live) (hstart : start < size) :
    slots start = live.head? := by
  have hzero := window.holds 0 (Nat.zero_lt_of_lt hstart)
  rwa [Nat.add_zero, Nat.mod_eq_of_lt hstart, ← List.head?_eq_getElem?] at hzero

/-- Writing the slot after the last live one appends an item. -/
theorem push (window : Window slots size start live) (hroom : live.length < size) (item : α) :
    Window (Function.update slots ((start + live.length) % size) (some item)) size start
      (live ++ [item]) := by
  refine ⟨by rw [List.length_append]; exact hroom, ?_⟩
  intro offset hoffset
  by_cases hlast : offset = live.length
  · subst hlast
    simp
  · have hplace : (start + offset) % size ≠ (start + live.length) % size :=
      fun heq => hlast (offset_injective hoffset hroom heq)
    rw [Function.update_of_ne hplace, window.holds offset hoffset]
    rcases Nat.lt_or_gt_of_ne hlast with hlt | hgt
    · exact (List.getElem?_append_left hlt).symm
    · rw [List.getElem?_eq_none (Nat.le_of_lt hgt), List.getElem?_eq_none]
      rw [List.length_append]
      exact hgt

/-- Emptying the first live slot and moving the start removes the oldest item. -/
theorem pop {item : α} (window : Window slots size start (item :: live)) (hstart : start < size) :
    Window (Function.update slots start none) size ((start + 1) % size) live := by
  have hlength : live.length < size := window.fits
  refine ⟨Nat.le_of_lt hlength, ?_⟩
  intro offset hoffset
  have hshift : ((start + 1) % size + offset) % size = (start + (offset + 1)) % size := by
    rw [Nat.mod_add_mod, Nat.add_assoc, Nat.add_comm 1 offset]
  rw [hshift]
  rcases Nat.lt_or_eq_of_le (Nat.succ_le_of_lt hoffset) with hinside | hwhole
  · have hplace : (start + (offset + 1)) % size ≠ start := by
      intro heq
      have := (ends_meet_iff hstart (Nat.le_of_lt hinside)).mp heq
      omega
    rw [Function.update_of_ne hplace, window.holds (offset + 1) hinside]
    exact List.getElem?_cons_succ
  · -- One whole revolution: the slot just emptied is now the last of the circle.
    have hback : (start + (offset + 1)) % size = start :=
      (ends_meet_iff hstart (Nat.le_of_eq hwhole)).mpr (Or.inr hwhole)
    rw [hback, Function.update_self, List.getElem?_eq_none]
    omega

end Window

end ClusteredPoller.Library.CircularWindow
