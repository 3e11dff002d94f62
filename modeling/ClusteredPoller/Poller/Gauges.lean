import ClusteredPoller.Poller.ValueLemmas
import Mathlib.Data.List.Basic

/-!
# Gauges

A gauge needs no previous value, and the first of the two tests for one lets
every gauge pass.  The second does not: it looks at the cached value whatever
the row is, so a gauge that was last read at zero, or never, is recorded only
if it reads zero.
-/

namespace ClusteredPoller.Poller

open Library.Outcome

/-- The value of the latest sample, or what the row had cached before. -/
def lastValue (row : Queryrow) (samples : List Sample) : UInt64 :=
  (samples.map Sample.counter).getLastD row.cachedCounter

/-- The row pushes exactly the value that the gauge shows. -/
def RecordsGauge (number : Nat) (sample : Sample) (polled : Polled) : Prop :=
  ∃ value, valuesOf number polled.history = [value] ∧
    value.counter = sample.counter ∧ value.rate.toNat = sample.counter.toNat ∧
    value.currvalue = sample.counter

/-- What a gauge below its speed pushes. -/
theorem valueOf_gauge {row : Queryrow} {sample : Sample} (hgauge : row.bits = 0)
    (hspeed : sample.counter < row.speed) (hnarrow : sample.counter.toNat < 2 ^ 32) :
    valueOf row sample = .ok
      (if row.cachedCounter > 0 ∨ sample.counter = 0 then
        some
          { id := row.id
            counter := sample.counter
            rate := sample.counter.toUInt32
            dtime := sample.dtime
            currvalue := sample.counter }
      else none) := by
  have hwide : sample.counter.toUInt32.toUInt64 = sample.counter := by
    apply UInt64.toNat_inj.mp
    rw [UInt32.toNat_toUInt64, UInt64.toNat_toUInt32, Nat.mod_eq_of_lt hnarrow]
  have htests : (row.cachedCounter > 0 ∨ (row.cachedCounter = 0 ∧ sample.counter = 0)) ↔
      (row.cachedCounter > 0 ∨ sample.counter = 0) := by
    by_cases hpositive : row.cachedCounter > 0
    · exact iff_of_true (Or.inl hpositive) (Or.inl hpositive)
    · have hzero : row.cachedCounter = 0 := by
        by_contra hne
        exact hpositive (UInt64.pos_iff_ne_zero.mpr hne)
      exact or_congr_right (and_iff_right hzero)
  unfold valueOf
  rw [if_pos (Or.inl hgauge), hgauge, calculateRate_gauge]
  by_cases hkept : row.cachedCounter > 0 ∨ sample.counter = 0
  · rw [if_pos (htests.mpr hkept), if_pos hkept, ok_bind]
    dsimp only
    rw [hwide, if_pos hspeed]
    rfl
  · rw [if_neg fun htest => hkept (htests.mp htest), if_neg hkept]

/-- Feeding changes nothing but the cache, which ends with the last value. -/
theorem feed_caches {row after : Queryrow} {samples : List Sample} {values : List ClinsertValue}
    (hfeed : feed row samples = .ok (after, values)) :
    after.bits = row.bits ∧ after.speed = row.speed ∧
      after.cachedCounter = lastValue row samples := by
  induction samples generalizing row values with
  | nil =>
      cases hfeed
      exact ⟨rfl, rfl, rfl⟩
  | cons sample samples ih =>
      obtain ⟨value, _, hrest⟩ := bind_eq_ok.mp hfeed
      obtain ⟨⟨reached, others⟩, hothers, hresult⟩ := bind_eq_ok.mp hrest
      cases hresult
      obtain ⟨hbits, hspeed, hcached⟩ := ih hothers
      refine ⟨hbits, hspeed, ?_⟩
      rw [hcached, lastValue, lastValue, List.map_cons, List.getLastD_cons]
      rfl

/-- After any polls of the host, a poll in which a gauge row answers with a
value below its speed and `2 ^ 32` records the value exactly when the row was
last read above zero or reads zero now. -/
theorem gauge_recorded_iff {Handle : Type} {sessOpen : SessOpen Handle} {maxErrors : UInt32}
    {host reached : Queryhost} {polls : List (Nat → Reply)} {history : List Event}
    (hpolls : pollHost sessOpen maxErrors host polls = .ok (reached, history))
    {number : Nat} {row : Queryrow} (hrow : host.rows[number]? = some row) (hgauge : row.bits = 0)
    {replies : Nat → Reply} {polled : Polled}
    (hpoll : getClinserts sessOpen replies reached maxErrors = .ok polled) {sample : Sample}
    (hgot : Event.got number sample ∈ polled.history) (hspeed : sample.counter < row.speed)
    (hnarrow : sample.counter.toNat < 2 ^ 32) :
    RecordsGauge number sample polled ↔
      lastValue row (samplesOf number history) > 0 ∨ sample.counter = 0 := by
  obtain ⟨after, hafter, hfeed⟩ := pollHost_feeds hpolls hrow
  obtain ⟨hbits, hspeeds, hcached⟩ := feed_caches hfeed
  obtain ⟨value, hvalue, hvalues⟩ := valuesOf_got hpoll hafter hgot
  have hgauges := @valueOf_gauge after sample (hbits.trans hgauge) (hspeeds.symm ▸ hspeed) hnarrow
  rw [hvalue, hcached] at hgauges
  have hdecided := Except.ok.inj hgauges
  unfold RecordsGauge
  rw [hvalues, hdecided]
  by_cases hkept : lastValue row (samplesOf number history) > 0 ∨ sample.counter = 0
  · rw [if_pos hkept]
    refine iff_of_true ⟨_, rfl, rfl, ?_, rfl⟩ hkept
    rw [UInt64.toNat_toUInt32, Nat.mod_eq_of_lt hnarrow]
  · rw [if_neg hkept]
    refine iff_of_false ?_ hkept
    rintro ⟨recorded, himpossible, _⟩
    cases himpossible

/-- A load in percent, never polled. -/
def loadRow : Queryrow where
  oid := some (CString.ofString "1.3.6.1.4.1.9.2.1.58.0")
  table := some (CString.ofString "cpuLoad")
  id := 4711
  bits := 0
  speed := 101
  cachedCounter := 0
  cachedTime := 0

/-- The load moves from 7 to 9. -/
theorem gauge_recorded_positive :
    ∃ reached history polled,
      pollHost (fun _ _ _ => some ()) 3 (singleHost loadRow) [answers 7 300] =
        .ok (reached, history) ∧
      getClinserts (fun _ _ _ => some ()) (answers 9 600) reached 3 = .ok polled ∧
      RecordsGauge 0 ⟨9, 600⟩ polled := by
  refine ⟨_, _, _, rfl, rfl, ?_⟩
  exact (@gauge_recorded_iff Unit (fun _ _ _ => some ()) 3 (singleHost loadRow) _ [answers 7 300]
    _ rfl 0 loadRow rfl rfl (answers 9 600) _ rfl ⟨9, 600⟩ List.mem_cons_self (by decide)
    (by decide)).mpr (Or.inl (by decide))

/-- The first poll of a load of 7, and the poll in which it moves from 0 to 7,
record nothing. -/
theorem gauge_skipped :
    (∃ polled, getClinserts (fun _ _ _ => some ()) (answers 7 300) (singleHost loadRow) 3 =
        .ok polled ∧
      Event.got 0 ⟨7, 300⟩ ∈ polled.history ∧ valuesOf 0 polled.history = [] ∧
      ¬ RecordsGauge 0 ⟨7, 300⟩ polled) ∧
    ∃ reached history polled,
      pollHost (fun _ _ _ => some ()) 3 (singleHost loadRow) [answers 0 300] =
        .ok (reached, history) ∧
      getClinserts (fun _ _ _ => some ()) (answers 7 600) reached 3 = .ok polled ∧
      Event.got 0 ⟨7, 600⟩ ∈ polled.history ∧ valuesOf 0 polled.history = [] ∧
      ¬ RecordsGauge 0 ⟨7, 600⟩ polled := by
  refine ⟨⟨_, rfl, List.mem_cons_self, rfl, ?_⟩, _, _, _, rfl, rfl, List.mem_cons_self, rfl, ?_⟩
  · rintro ⟨value, himpossible, _⟩
    cases himpossible
  · rintro ⟨value, himpossible, _⟩
    cases himpossible

end ClusteredPoller.Poller
