import ClusteredPoller.Poller.RateLemmas
import ClusteredPoller.Poller.RowHistory

/-!
# Which samples are inserted

The two conditions that guard an insertion, and the exact growth and rate that
a sample stands for, before the code narrows the rate to 32 bits.
-/

namespace ClusteredPoller.Poller

open Library
open Library.Outcome

/-- The code's tests for a previous value. -/
def HasPrevious (row : Queryrow) (sample : Sample) : Prop :=
  (row.bits = 0 ∨ row.cachedTime ≠ 0) ∧
    (row.cachedCounter > 0 ∨ (row.cachedCounter = 0 ∧ sample.counter = 0))

instance (row : Queryrow) (sample : Sample) : Decidable (HasPrevious row sample) :=
  inferInstanceAs (Decidable (_ ∧ _))

/-- A gauge stands for its value, a counter for its forward distance. -/
def trueGrowth (row : Queryrow) (sample : Sample) : Nat :=
  if row.bits = 0 then sample.counter.toNat
  else WrappingCounter.distance (2 ^ row.bits.toNat) row.cachedCounter.toNat sample.counter.toNat

/-- The rate as an exact integer. -/
def trueRate (row : Queryrow) (sample : Sample) : Nat :=
  if row.bits = 0 then sample.counter.toNat
  else trueGrowth row sample / (sample.dtime - row.cachedTime).toNat

/-- The row is a gauge, or a counter with both readings inside its width, and
the sample is later than the cached one. -/
structure Measurable (row : Queryrow) (sample : Sample) : Prop where
  width : row.bits = 0 ∨
    IsCounter row.bits row.bits.toNat ∧ row.cachedCounter.toNat < 2 ^ row.bits.toNat ∧
      sample.counter.toNat < 2 ^ row.bits.toNat
  later : row.cachedTime < sample.dtime

/-- The growth that `calculate_rate` finds, whatever the readings and the width:
a counter of another width than 64 bits wraps around after 32. -/
def exactGrowth (row : Queryrow) (sample : Sample) : Nat :=
  if row.bits = 0 then sample.counter.toNat
  else
    (if row.cachedCounter > sample.counter then
        sample.counter - row.cachedCounter + wrapCorrection row.bits
      else sample.counter - row.cachedCounter).toNat

/-- Its rate, before it is narrowed. -/
def exactRate (row : Queryrow) (sample : Sample) : Nat :=
  if row.bits = 0 then sample.counter.toNat
  else exactGrowth row sample / (sample.dtime - row.cachedTime).toNat

/-- Within the width these are the true ones. -/
theorem exactGrowth_measurable {row : Queryrow} {sample : Sample}
    (measurable : Measurable row sample) :
    exactGrowth row sample = trueGrowth row sample ∧
      exactRate row sample = trueRate row sample := by
  have hgrowth : exactGrowth row sample = trueGrowth row sample := by
    unfold exactGrowth trueGrowth
    rcases measurable.width with hgauge | ⟨counter, hprev, hcur⟩
    · rw [if_pos hgauge, if_pos hgauge]
    · rw [if_neg counter.ne_gauge, if_neg counter.ne_gauge]
      exact counterDiff_toNat counter hprev hcur
  refine ⟨hgrowth, ?_⟩
  rw [exactRate, trueRate, hgrowth]

/-- `calculate_rate` gives the growth and the low 32 bits of the rate. -/
theorem calculateRate_exact {row : Queryrow} {sample : Sample}
    (hlater : row.cachedTime < sample.dtime) :
    ∃ found, calculateRate row.cachedTime row.cachedCounter sample.dtime sample.counter
        row.bits = .ok found ∧
      found.counterDiff.toNat = exactGrowth row sample ∧
      found.rate.toNat = exactRate row sample % 2 ^ 32 := by
  unfold exactRate exactGrowth
  by_cases hgauge : row.bits = 0
  · rw [hgauge, calculateRate_gauge]
    exact ⟨_, rfl, rfl, UInt64.toNat_toUInt32 _⟩
  · obtain ⟨found, hfound, hgrowth, hrate⟩ :=
      calculateRate_later hgauge hlater row.cachedCounter sample.counter
    rw [if_neg hgauge, if_neg hgauge, ← hgrowth]
    exact ⟨found, hfound, rfl, hrate⟩

/-- A sample is inserted when it has a previous value and the low 32 bits of
its rate are below the row's speed, and then with its growth. -/
theorem valueOf_exact {row : Queryrow} {sample : Sample}
    (hlater : row.cachedTime < sample.dtime) :
    ∃ value, valueOf row sample = .ok value ∧
      (value = none ↔
        ¬ (HasPrevious row sample ∧ exactRate row sample % 2 ^ 32 < row.speed.toNat)) ∧
      ∀ inserted ∈ value, inserted.counter.toNat = exactGrowth row sample := by
  obtain ⟨found, hfound, hgrowth, hrate⟩ := calculateRate_exact hlater
  unfold valueOf HasPrevious
  by_cases hfirst : row.bits = 0 ∨ row.cachedTime ≠ 0
  · rw [if_pos hfirst]
    by_cases hsecond : row.cachedCounter > 0 ∨ (row.cachedCounter = 0 ∧ sample.counter = 0)
    · rw [if_pos hsecond, hfound, ok_bind]
      have hspeed : found.rate.toUInt64 < row.speed ↔
          exactRate row sample % 2 ^ 32 < row.speed.toNat := by
        rw [UInt64.lt_iff_toNat_lt, UInt32.toNat_toUInt64, hrate]
      by_cases hbelow : found.rate.toUInt64 < row.speed
      · rw [if_pos hbelow]
        refine ⟨_, rfl, ?_, ?_⟩
        · exact iff_of_false (Option.some_ne_none _)
            (not_not_intro ⟨⟨hfirst, hsecond⟩, hspeed.mp hbelow⟩)
        · rintro inserted ⟨⟩
          exact hgrowth
      · rw [if_neg hbelow]
        refine ⟨none, rfl, ?_, ?_⟩
        · exact iff_of_true rfl fun all => hbelow (hspeed.mpr all.2)
        · rintro inserted ⟨⟩
    · rw [if_neg hsecond]
      refine ⟨none, rfl, ?_, ?_⟩
      · exact iff_of_true rfl fun all => hsecond all.1.2
      · rintro inserted ⟨⟩
  · rw [if_neg hfirst]
    refine ⟨none, rfl, ?_, ?_⟩
    · exact iff_of_true rfl fun all => hfirst all.1.1
    · rintro inserted ⟨⟩

theorem valueOf_measurable {row : Queryrow} {sample : Sample}
    (measurable : Measurable row sample) :
    ∃ value, valueOf row sample = .ok value ∧
      (value = none ↔
        ¬ (HasPrevious row sample ∧ trueRate row sample % 2 ^ 32 < row.speed.toNat)) ∧
      ∀ inserted ∈ value, inserted.counter.toNat = trueGrowth row sample := by
  obtain ⟨hgrowth, hrate⟩ := exactGrowth_measurable measurable
  rw [← hgrowth, ← hrate]
  exact valueOf_exact measurable.later

/-! ## A host with one row -/

/-- A host that holds a single row and can be queried. -/
def singleHost (row : Queryrow) : Queryhost where
  host := none
  community := some (CString.ofString "public")
  snmpver := 2
  rows := [row]

/-- A poll in which every get succeeds with the same counter and time. -/
def answers (counter : UInt64) (dtime : Int) : Nat → Reply := fun _ => some ⟨counter, dtime⟩

/-- Polling a single row pushes what is decided for its sample. -/
theorem poll_singleHost {row : Queryrow} {sample : Sample} {value : Option ClinsertValue}
    (hvalue : valueOf row sample = .ok value) :
    ∃ polled, getClinserts (fun _ _ _ => some ()) (fun _ => some sample) (singleHost row) 1 =
        .ok polled ∧
      Event.got 0 sample ∈ polled.history ∧ valuesOf 0 polled.history = value.toList := by
  have hrow : ∃ progress : Progress,
      pollRow 0 row (some sample) Progress.start = .ok (row.cache sample, progress) ∧
        progress.errors = 0 ∧ Event.got 0 sample ∈ progress.history ∧
        valuesOf 0 progress.history = value.toList := by
    change ∃ progress, (valueOf row sample >>= fun _ => _) = .ok (_, progress) ∧ _
    rw [hvalue]
    cases value with
    | none => exact ⟨_, rfl, rfl, List.mem_cons_self, rfl⟩
    | some value => exact ⟨_, rfl, rfl, List.mem_append_left _ List.mem_cons_self, rfl⟩
  obtain ⟨progress, hprogress, herrors, hgot, hvalues⟩ := hrow
  change ∃ polled, ((pollRow 0 row (some sample) Progress.start >>= fun _ => _) >>= _) =
    .ok polled ∧ _
  rw [hprogress, ok_bind]
  dsimp only
  rw [herrors, if_neg (by decide)]
  exact ⟨_, rfl, hgot, hvalues⟩

end ClusteredPoller.Poller
