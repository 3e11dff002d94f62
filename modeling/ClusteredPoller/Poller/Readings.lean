import ClusteredPoller.Library.Outcome
import ClusteredPoller.Poller.GetClinserts
import ClusteredPoller.Poller.RateLemmas
import Mathlib.Data.List.Chain
import Mathlib.Data.List.Forall2

/-!
# Readings of a counter

A counter that grows without bound is read modulo its width.  However often it
wraps, `calculate_rate` finds the growth between two successive readings, and
the rate as long as it fits 32 bits.
-/

namespace ClusteredPoller.Poller

open Library
open Library.Outcome

/-- A successful get together with what the unbounded counter stood at. -/
structure Reading where
  total : Nat
  sample : Sample

/-- The sample shows the counter modulo its width. -/
def Reading.Shows (reading : Reading) (width : Nat) : Prop :=
  reading.sample.counter.toNat = reading.total % 2 ^ width

theorem Reading.Shows.lt {reading : Reading} {width : Nat} (shows : reading.Shows width) :
    reading.sample.counter.toNat < 2 ^ width := by
  rw [shows]
  exact Nat.mod_lt _ (Nat.two_pow_pos width)

/-- Between two readings time passes, and the counter does not fall and grows by
less than its width. -/
structure Advances (width : Nat) (earlier later : Reading) : Prop where
  time : earlier.sample.dtime < later.sample.dtime
  grows : earlier.total ≤ later.total
  growth : later.total - earlier.total < 2 ^ width

/-- The last total of a run of readings that starts with `first`. -/
def lastTotal : Reading → List Reading → Nat
  | first, [] => first.total
  | _, later :: rest => lastTotal later rest

/-- The readings that follow one another. -/
def successive : List Reading → List (Reading × Reading)
  | earlier :: later :: rest => (earlier, later) :: successive (later :: rest)
  | _ => []

/-- `calculate_rate` on two successive readings. -/
def rateBetween (bits : UInt32) (pair : Reading × Reading) : Except Fault Rate :=
  calculateRate pair.1.sample.dtime pair.1.sample.counter pair.2.sample.dtime
    pair.2.sample.counter bits

/-- The difference is the growth, and a rate that fits 32 bits is the growth for
each second, rounded down. -/
structure Measures (pair : Reading × Reading) (found : Rate) : Prop where
  growth : found.counterDiff.toNat = pair.2.total - pair.1.total
  rate : (pair.2.total - pair.1.total) / (pair.2.sample.dtime - pair.1.sample.dtime).toNat <
      2 ^ 32 →
    found.rate.toNat =
      (pair.2.total - pair.1.total) / (pair.2.sample.dtime - pair.1.sample.dtime).toNat

/-! ## One pair of readings -/

section Pair

variable {width : Nat} {earlier later : Reading}

/-- The growth of the counter is the forward distance of the readings. -/
theorem distance_of_advances (hearlier : earlier.Shows width) (hlater : later.Shows width)
    (advances : Advances width earlier later) :
    WrappingCounter.distance (2 ^ width) earlier.sample.counter.toNat
      later.sample.counter.toNat = later.total - earlier.total := by
  have htotal : earlier.total + (later.total - earlier.total) = later.total :=
    Nat.add_sub_cancel' advances.grows
  have hdistance := WrappingCounter.distance_readings earlier.total advances.growth
  rw [htotal] at hdistance
  rw [hearlier, hlater]
  exact hdistance

theorem rateBetween_measures {bits : UInt32} (counter : IsCounter bits width)
    (hearlier : earlier.Shows width) (hlater : later.Shows width)
    (advances : Advances width earlier later) :
    ∃ found, rateBetween bits (earlier, later) = .ok found ∧ Measures (earlier, later) found := by
  obtain ⟨found, hfound, hgrowth, hrate⟩ :=
    calculateRate_counter counter advances.time hearlier.lt hlater.lt
  rw [distance_of_advances hearlier hlater advances] at hgrowth hrate
  refine ⟨found, hfound, hgrowth, fun hnarrow => ?_⟩
  rw [hrate]
  exact Nat.mod_eq_of_lt hnarrow

end Pair

/-! ## Runs of readings -/

theorem successive_advances {width : Nat} {first : Reading} {rest : List Reading}
    (shows : ∀ reading ∈ first :: rest, reading.Shows width)
    (chain : List.IsChain (Advances width) (first :: rest)) :
    ∀ pair ∈ successive (first :: rest),
      pair.1.Shows width ∧ pair.2.Shows width ∧ Advances width pair.1 pair.2 := by
  induction rest generalizing first with
  | nil =>
      intro pair hpair
      cases hpair
  | cons later rest ih =>
      obtain ⟨advances, hchain⟩ := List.isChain_cons_cons.mp chain
      obtain ⟨hfirst, hrest⟩ := List.forall_mem_cons.mp shows
      intro pair hpair
      rcases List.mem_cons.mp hpair with rfl | hothers
      · exact ⟨hfirst, hrest later List.mem_cons_self, advances⟩
      · exact ih hrest hchain pair hothers

theorem total_le_lastTotal {width : Nat} {first : Reading} {rest : List Reading}
    (chain : List.IsChain (Advances width) (first :: rest)) :
    first.total ≤ lastTotal first rest := by
  induction rest generalizing first with
  | nil => exact Nat.le_refl _
  | cons later rest ih =>
      obtain ⟨advances, hchain⟩ := List.isChain_cons_cons.mp chain
      exact Nat.le_trans advances.grows (ih hchain)

/-- Differences that are the growth between successive readings add up to the
growth between the first and the last reading. -/
theorem sum_of_measures {width : Nat} {first : Reading} {rest : List Reading}
    {found : List Rate} (chain : List.IsChain (Advances width) (first :: rest))
    (measures : List.Forall₂ Measures (successive (first :: rest)) found) :
    (found.map fun rate => rate.counterDiff.toNat).sum = lastTotal first rest - first.total := by
  induction rest generalizing first found with
  | nil =>
      cases measures
      exact (Nat.sub_self _).symm
  | cons later rest ih =>
      obtain ⟨advances, hchain⟩ := List.isChain_cons_cons.mp chain
      cases measures with
      | cons measure others =>
          have hgrowth := measure.growth
          have hrest := ih hchain others
          have hlast := total_le_lastTotal hchain
          have hgrows := advances.grows
          rw [List.map_cons, List.sum_cons, hrest, hgrowth, lastTotal]
          dsimp only
          omega

/-- On any run of readings `calculate_rate` finds the growth between each two
successive readings, however often the counter wraps. -/
theorem rates_of_readings {bits : UInt32} {width : Nat} (counter : IsCounter bits width)
    {first : Reading} {rest : List Reading}
    (shows : ∀ reading ∈ first :: rest, reading.Shows width)
    (chain : List.IsChain (Advances width) (first :: rest)) :
    ∃ found, (successive (first :: rest)).mapM (rateBetween bits) = .ok found ∧
      List.Forall₂ Measures (successive (first :: rest)) found ∧
      (found.map fun rate => rate.counterDiff.toNat).sum = lastTotal first rest - first.total := by
  obtain ⟨found, hrates, measures⟩ := exists_mapM fun pair hpair => by
    obtain ⟨hearlier, hlater, advances⟩ := successive_advances shows chain pair hpair
    exact rateBetween_measures counter hearlier hlater advances
  exact ⟨found, hrates, measures, sum_of_measures chain measures⟩

/-- A 32-bit counter that is read just below its wrap, just above it, and just
above the next wrap. -/
def wrappingReadings : List Reading :=
  [⟨4294967290, ⟨4294967290, 300⟩⟩, ⟨4294967300, ⟨4, 600⟩⟩, ⟨8589934593, ⟨1, 601⟩⟩]

/-- The two differences of that counter, the second of them at its largest rate
but three. -/
theorem rates_across_wraps :
    (∃ found, (successive wrappingReadings).mapM (rateBetween 32) = .ok found ∧
      List.Forall₂ Measures (successive wrappingReadings) found ∧
      (found.map fun rate => rate.counterDiff.toNat).sum = 4294967303) ∧
    (successive wrappingReadings).mapM (rateBetween 32) =
      .ok [⟨10, 0⟩, ⟨4294967293, 4294967293⟩] := by
  have shows : ∀ reading ∈ wrappingReadings, reading.Shows 32 := by
    intro reading hreading
    simp only [wrappingReadings, List.mem_cons, List.not_mem_nil, or_false] at hreading
    rcases hreading with rfl | rfl | rfl <;> rfl
  have chain : List.IsChain (Advances 32) wrappingReadings := by
    refine List.isChain_cons_cons.mpr ⟨⟨by decide, by decide, by decide⟩, ?_⟩
    exact List.isChain_cons_cons.mpr ⟨⟨by decide, by decide, by decide⟩, List.isChain_singleton _⟩
  exact ⟨rates_of_readings ⟨rfl, Or.inl rfl⟩ shows chain, rfl⟩

end ClusteredPoller.Poller
