import ClusteredPoller.Library.WrappingCounter
import ClusteredPoller.Poller.Rate

/-!
# What `calculate_rate` computes

For a counter the difference is the forward distance of the two readings round
the counter's circle, and the rate is the low 32 bits of its quotient by the
time difference.
-/

namespace ClusteredPoller.Poller

open Library

theorem calculateRate_gauge (prevTime curTime : Int) (prevCounter curCounter : UInt64) :
    calculateRate prevTime prevCounter curTime curCounter 0 =
      .ok ⟨curCounter, curCounter.toUInt32⟩ := rfl

/-- A counter has one of the two widths that `calculate_rate` distinguishes. -/
structure IsCounter (bits : UInt32) (width : Nat) : Prop where
  width_eq : bits.toNat = width
  supported : width = 32 ∨ width = 64

namespace IsCounter

variable {bits : UInt32} {width : Nat}

theorem cases (counter : IsCounter bits width) :
    (bits = 32 ∧ width = 32) ∨ (bits = 64 ∧ width = 64) := by
  rcases counter.supported with rfl | rfl
  · exact Or.inl ⟨UInt32.toNat_inj.mp counter.width_eq, rfl⟩
  · exact Or.inr ⟨UInt32.toNat_inj.mp counter.width_eq, rfl⟩

theorem ne_gauge (counter : IsCounter bits width) : bits ≠ 0 := by
  rcases counter.cases with ⟨rfl, _⟩ | ⟨rfl, _⟩ <;> decide

end IsCounter

/-- The wrapped subtraction and its correction give the forward distance. -/
theorem counterDiff_toNat {bits : UInt32} {width : Nat} (counter : IsCounter bits width)
    {prevCounter curCounter : UInt64} (hprev : prevCounter.toNat < 2 ^ width)
    (hcur : curCounter.toNat < 2 ^ width) :
    (if prevCounter > curCounter then curCounter - prevCounter + wrapCorrection bits
      else curCounter - prevCounter).toNat =
      WrappingCounter.distance (2 ^ width) prevCounter.toNat curCounter.toNat := by
  by_cases hwrap : prevCounter > curCounter
  · have hlt : curCounter.toNat < prevCounter.toNat := UInt64.lt_iff_toNat_lt.mp hwrap
    rw [if_pos hwrap, WrappingCounter.distance_of_lt hlt hprev, UInt64.toNat_add,
      UInt64.toNat_sub]
    rcases counter.cases with ⟨rfl, rfl⟩ | ⟨rfl, rfl⟩
    · have hcorrection : (wrapCorrection 32).toNat = 2 ^ 32 := by decide
      rw [hcorrection]
      omega
    · have hcorrection : (wrapCorrection 64).toNat = 0 := by decide
      rw [hcorrection]
      omega
  · have hle : prevCounter ≤ curCounter := UInt64.not_lt.mp hwrap
    rw [if_neg hwrap, UInt64.toNat_sub_of_le _ _ hle,
      WrappingCounter.distance_of_le (UInt64.le_iff_toNat_le.mp hle) hcur]

/-- With time between the readings, a counter has a rate, the low 32 bits of the
difference divided by the time. -/
theorem calculateRate_later {prevTime curTime : Int} {bits : UInt32} (hcounter : bits ≠ 0)
    (hlater : prevTime < curTime) (prevCounter curCounter : UInt64) :
    ∃ found, calculateRate prevTime prevCounter curTime curCounter bits = .ok found ∧
      found.counterDiff =
        (if prevCounter > curCounter then curCounter - prevCounter + wrapCorrection bits
          else curCounter - prevCounter) ∧
      found.rate.toNat = found.counterDiff.toNat / (curTime - prevTime).toNat % 2 ^ 32 := by
  have hnonzero : curTime - prevTime ≠ 0 := by omega
  have hunsigned : unsignedOfTime (curTime - prevTime) = (curTime - prevTime).toNat :=
    unsignedOfTime_of_nonneg (by omega)
  unfold calculateRate
  rw [if_neg hcounter]
  dsimp only
  rw [if_neg hnonzero, hunsigned]
  exact ⟨_, rfl, rfl, UInt32.toNat_ofNat'⟩

theorem calculateRate_counter {bits : UInt32} {width : Nat} (counter : IsCounter bits width)
    {prevTime curTime : Int} (htime : prevTime < curTime) {prevCounter curCounter : UInt64}
    (hprev : prevCounter.toNat < 2 ^ width) (hcur : curCounter.toNat < 2 ^ width) :
    ∃ found, calculateRate prevTime prevCounter curTime curCounter bits = .ok found ∧
      found.counterDiff.toNat =
        WrappingCounter.distance (2 ^ width) prevCounter.toNat curCounter.toNat ∧
      found.rate.toNat =
        WrappingCounter.distance (2 ^ width) prevCounter.toNat curCounter.toNat /
          (curTime - prevTime).toNat % 2 ^ 32 := by
  obtain ⟨found, hfound, hdiff, hrate⟩ :=
    calculateRate_later counter.ne_gauge htime prevCounter curCounter
  have hdistance := counterDiff_toNat counter hprev hcur
  rw [← hdiff] at hdistance
  exact ⟨found, hfound, hdistance, hdistance ▸ hrate⟩

theorem rate_of_later {prevTime curTime : Int} {prevCounter curCounter : UInt64} {bits : UInt32}
    {found : Rate} (hcounter : bits ≠ 0) (hlater : prevTime < curTime)
    (hfound : calculateRate prevTime prevCounter curTime curCounter bits = .ok found) :
    found.rate.toNat = found.counterDiff.toNat / (curTime - prevTime).toNat % 2 ^ 32 := by
  obtain ⟨later, hrate, -, hrest⟩ :=
    calculateRate_later hcounter hlater prevCounter curCounter
  rw [hfound] at hrate
  cases hrate
  exact hrest

theorem calculateRate_fault {prevTime curTime : Int} {prevCounter curCounter : UInt64}
    {bits : UInt32} {fault : Fault}
    (hfault : calculateRate prevTime prevCounter curTime curCounter bits = .error fault) :
    fault = .exit := by
  unfold calculateRate at hfault
  split at hfault
  · cases hfault
  · dsimp only at hfault
    split at hfault
    · cases hfault
      rfl
    · cases hfault

/-- The branch that leaves the program: a counter read twice in one second. -/
theorem calculateRate_exit_iff {prevTime curTime : Int} {prevCounter curCounter : UInt64}
    {bits : UInt32} :
    calculateRate prevTime prevCounter curTime curCounter bits = .error .exit ↔
      bits ≠ 0 ∧ curTime = prevTime := by
  unfold calculateRate
  by_cases hgauge : bits = 0
  · simp [hgauge]
  · rw [if_neg hgauge]
    by_cases hsame : curTime - prevTime = 0
    · simp [hgauge, hsame]
      omega
    · simp [hgauge, hsame]
      omega

end ClusteredPoller.Poller
