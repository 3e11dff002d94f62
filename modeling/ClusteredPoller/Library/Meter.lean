/-!
# A counter that is read and reset

Some add to a counter of limited size; another reads it, and later sets it back
to zero and reports what it last read.  The account balances exactly if no
addition wraps the counter around, and if the counter has not moved between the
last reading and the reset.
-/

namespace ClusteredPoller.Library

/-- The counter, with all that was added and reported, and the reading that is
not yet reported. -/
@[ext]
structure Meter where
  added : Nat
  reported : Nat
  current : Nat
  noted : Nat

namespace Meter

inductive Move where
  | rest
  | add (amount : Nat)
  | note
  | reset

def next (size : Nat) (meter : Meter) : Move → Meter
  | .rest => meter
  | .add amount =>
      { meter with
        added := meter.added + amount
        current := (meter.current + amount) % size }
  | .note => { meter with noted := meter.current }
  | .reset =>
      { meter with
        reported := meter.reported + meter.noted
        current := 0
        noted := 0 }

/-- The move loses something. -/
def Loses (size : Nat) (meter : Meter) : Move → Prop
  | .add amount => size ≤ meter.current + amount
  | .reset => meter.current ≠ meter.noted
  | .rest | .note => False

/-- All that was added was reported or is still there. -/
def Balanced (meter : Meter) : Prop := meter.added = meter.reported + meter.current

/-- What a meter always satisfies: only what wrapped around makes the counter
smaller than the last reading. -/
structure Sound (size : Nat) (meter : Meter) : Prop where
  current : meter.current < size
  noted : meter.noted < size
  accounted : meter.reported + meter.current ≤ meter.added
  wrapped : meter.noted ≤ meter.current ∨
    meter.reported + meter.current + size ≤ meter.added

variable {size : Nat} {meter : Meter}

/-- An addition that does not fit loses at least the size of the counter. -/
theorem add_mod_cases (size : Nat) (meter : Meter) (amount : Nat) :
    (meter.current + amount < size ∧
      (meter.current + amount) % size = meter.current + amount) ∨
    (size ≤ meter.current + amount ∧
      (meter.current + amount) % size + size ≤ meter.current + amount) := by
  rcases Nat.lt_or_ge (meter.current + amount) size with hfits | hwraps
  · exact Or.inl ⟨hfits, Nat.mod_eq_of_lt hfits⟩
  · refine Or.inr ⟨hwraps, ?_⟩
    have hsub := Nat.mod_eq_sub_mod hwraps
    have hle := Nat.mod_le (meter.current + amount - size) size
    omega

theorem Sound.next (sound : Sound size meter) (move : Move) :
    Sound size (meter.next size move) := by
  obtain ⟨hcurrent, hnoted, haccounted, hwrapped⟩ := sound
  have hsize : 0 < size := Nat.zero_lt_of_lt hcurrent
  cases move with
  | rest => exact ⟨hcurrent, hnoted, haccounted, hwrapped⟩
  | note => exact ⟨hcurrent, hcurrent, haccounted, Or.inl (Nat.le_refl _)⟩
  | add amount =>
      refine ⟨Nat.mod_lt _ hsize, hnoted, ?_, ?_⟩ <;>
        rcases add_mod_cases size meter amount with ⟨_, hsum⟩ | ⟨_, hsum⟩ <;>
        dsimp only [Meter.next] <;> omega
  | reset =>
      refine ⟨hsize, hsize, ?_, Or.inl (Nat.le_refl _)⟩
      dsimp only [Meter.next]
      omega

/-- A move keeps the account in balance if it loses nothing, and nothing brings
it back into balance. -/
theorem Sound.balanced_next (sound : Sound size meter) (move : Move) :
    (meter.next size move).Balanced ↔ meter.Balanced ∧ ¬ meter.Loses size move := by
  obtain ⟨hcurrent, hnoted, haccounted, hwrapped⟩ := sound
  unfold Balanced
  cases move with
  | rest => exact (and_iff_left not_false).symm
  | note => exact (and_iff_left not_false).symm
  | add amount =>
      dsimp only [Meter.next, Loses]
      rcases add_mod_cases size meter amount with ⟨_, hsum⟩ | ⟨_, hsum⟩ <;> omega
  | reset =>
      dsimp only [Meter.next, Loses]
      omega

end Meter

end ClusteredPoller.Library
