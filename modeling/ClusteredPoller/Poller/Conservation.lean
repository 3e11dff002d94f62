import ClusteredPoller.Poller.Readings
import ClusteredPoller.Poller.ValueLemmas

/-!
# Conservation of traffic

A counter row is fed by a counter that grows without bound and is read modulo
its width.  The values pushed for the row add up to the growth between the
first and the last reading, except for the growth after a reading that the code
takes for no previous value: a reading of exactly zero, or one taken at time
zero.
-/

namespace ClusteredPoller.Poller

open Library
open Library.Outcome

/-- Two successive readings: time passes, the counter does not fall and grows
by less than its width, and the rate stays below the speed and 32 bits. -/
structure Follows (speed : UInt64) (width : Nat) (earlier later : Reading) : Prop where
  time : earlier.sample.dtime < later.sample.dtime
  grows : earlier.total ≤ later.total
  growth : later.total - earlier.total < 2 ^ width
  belowSpeed : (later.total - earlier.total) /
    (later.sample.dtime - earlier.sample.dtime).toNat < speed.toNat
  narrow : (later.total - earlier.total) /
    (later.sample.dtime - earlier.sample.dtime).toNat < 2 ^ 32

theorem Follows.advances {speed : UInt64} {width : Nat} {earlier later : Reading}
    (follows : Follows speed width earlier later) : Advances width earlier later :=
  ⟨follows.time, follows.grows, follows.growth⟩

/-- The code takes this reading for a previous value when the counter has
moved on from it. -/
def Reading.Kept (reading : Reading) : Prop :=
  reading.sample.counter ≠ 0 ∧ reading.sample.dtime ≠ 0

instance (reading : Reading) : Decidable reading.Kept :=
  inferInstanceAs (Decidable (_ ∧ _))

/-- The growth between successive readings of which the earlier is not kept. -/
def lostGrowth : List Reading → Nat
  | earlier :: later :: rest =>
      (if earlier.Kept then 0 else later.total - earlier.total) + lostGrowth (later :: rest)
  | _ => 0

/-! ## One pair of readings -/

section Pair

variable {row : Queryrow} {width : Nat} {earlier later : Reading}

/-- If the counter has moved on from zero, it does not read zero. -/
theorem reading_moves (hearlier : earlier.Shows width) (hlater : later.Shows width)
    (follows : Follows row.speed width earlier later) (hmoved : earlier.total < later.total)
    (hzero : earlier.sample.counter = 0) : later.sample.counter ≠ 0 := by
  intro hlaterZero
  have hgrown : later.total - earlier.total ≠ 0 := by omega
  apply hgrown
  rw [← distance_of_advances hearlier hlater follows.advances, hzero, hlaterZero]
  exact WrappingCounter.distance_of_le (Nat.le_refl _) (Nat.two_pow_pos width)

/-- A kept reading is a previous value; one that is not kept is one only while
the counter stands still. -/
theorem hasPrevious_cases (counter : IsCounter row.bits width)
    (hearlier : earlier.Shows width) (hlater : later.Shows width)
    (follows : Follows row.speed width earlier later)
    (htime : row.cachedTime = earlier.sample.dtime)
    (hcached : row.cachedCounter = earlier.sample.counter) :
    (earlier.Kept → HasPrevious row later.sample) ∧
      (HasPrevious row later.sample → ¬ earlier.Kept → later.total - earlier.total = 0) := by
  unfold HasPrevious Reading.Kept
  rw [htime, hcached]
  constructor
  · rintro ⟨hcounter, hkept⟩
    exact ⟨Or.inr hkept, Or.inl (UInt64.pos_iff_ne_zero.mpr hcounter)⟩
  · rintro ⟨hfirst, hsecond⟩ hlost
    have hnonzero : earlier.sample.dtime ≠ 0 := hfirst.resolve_left counter.ne_gauge
    have hzero : earlier.sample.counter = 0 := by
      by_contra hne
      exact hlost ⟨hne, hnonzero⟩
    rcases hsecond with hpositive | ⟨_, hstuck⟩
    · exact absurd hzero (UInt64.pos_iff_ne_zero.mp hpositive)
    · by_contra hgrown
      exact reading_moves hearlier hlater follows (by omega) hzero hstuck

/-- The value pushed for a later reading, if any, is the whole growth; nothing
is pushed only if the earlier reading was not kept or nothing has grown. -/
theorem valueOf_follows (counter : IsCounter row.bits width) (hearlier : earlier.Shows width)
    (hlater : later.Shows width) (follows : Follows row.speed width earlier later)
    (htime : row.cachedTime = earlier.sample.dtime)
    (hcached : row.cachedCounter = earlier.sample.counter) :
    ∃ value, valueOf row later.sample = .ok value ∧
      ((value.toList.map fun inserted => inserted.counter.toNat).sum +
        if earlier.Kept then 0 else later.total - earlier.total) =
        later.total - earlier.total := by
  have measurable : Measurable row later.sample := by
    refine ⟨Or.inr ⟨⟨rfl, ?_⟩, ?_, ?_⟩, ?_⟩
    · rw [counter.width_eq]
      exact counter.supported
    · rw [counter.width_eq, hcached]
      exact hearlier.lt
    · rw [counter.width_eq]
      exact hlater.lt
    · rw [htime]
      exact follows.time
  have hgrowth : trueGrowth row later.sample = later.total - earlier.total := by
    rw [trueGrowth, if_neg counter.ne_gauge, counter.width_eq, hcached]
    exact distance_of_advances hearlier hlater follows.advances
  have hrate : trueRate row later.sample % 2 ^ 32 < row.speed.toNat := by
    rw [trueRate, if_neg counter.ne_gauge, hgrowth, htime, Nat.mod_eq_of_lt follows.narrow]
    exact follows.belowSpeed
  obtain ⟨value, hvalue, hnone, hsome⟩ := valueOf_measurable measurable
  obtain ⟨hkept, hlost⟩ :=
    hasPrevious_cases counter hearlier hlater follows htime hcached
  refine ⟨value, hvalue, ?_⟩
  cases value with
  | none =>
      have hnotKept : ¬ earlier.Kept := fun kept => hnone.mp rfl ⟨hkept kept, hrate⟩
      rw [if_neg hnotKept]
      exact Nat.zero_add _
  | some inserted =>
      have hprevious : HasPrevious row later.sample := by
        by_contra habsent
        exact Option.some_ne_none _ (hnone.mpr fun all => habsent all.1)
      have hcounter : inserted.counter.toNat = later.total - earlier.total :=
        (hsome inserted rfl).trans hgrowth
      change inserted.counter.toNat + 0 + _ = _
      rw [Nat.add_zero, hcounter]
      by_cases kept : earlier.Kept
      · rw [if_pos kept, Nat.add_zero]
      · rw [if_neg kept, hlost hprevious kept]

end Pair

/-! ## Runs of readings -/

/-- Feeding the later readings of a run to a row that has cached the first one
pushes all the growth that is not lost. -/
theorem feed_conserves {row : Queryrow} {width : Nat} (counter : IsCounter row.bits width)
    {first : Reading} {rest : List Reading}
    (shows : ∀ reading ∈ first :: rest, reading.Shows width)
    (chain : List.IsChain (Follows row.speed width) (first :: rest))
    (htime : row.cachedTime = first.sample.dtime)
    (hcached : row.cachedCounter = first.sample.counter) :
    ∃ after values, feed row (rest.map Reading.sample) = .ok (after, values) ∧
      (values.map fun inserted => inserted.counter.toNat).sum + lostGrowth (first :: rest) =
        lastTotal first rest - first.total := by
  induction rest generalizing row first with
  | nil => exact ⟨row, [], rfl, (Nat.sub_self _).symm⟩
  | cons later rest ih =>
      obtain ⟨follows, hchain⟩ := List.isChain_cons_cons.mp chain
      have hlaterShows := shows later (List.mem_cons_of_mem _ List.mem_cons_self)
      obtain ⟨value, hvalue, hpair⟩ := valueOf_follows counter
        (shows first List.mem_cons_self) hlaterShows follows htime hcached
      obtain ⟨after, values, hfeed, hsum⟩ := @ih (row.cache later.sample) counter later
        (fun reading hreading => shows reading (List.mem_cons_of_mem _ hreading)) hchain rfl rfl
      refine ⟨after, value.toList ++ values, ?_, ?_⟩
      · change (valueOf row later.sample >>= fun _ => feed _ _ >>= fun _ => _) = _
        rw [hvalue, ok_bind, hfeed]
        rfl
      · have hlast := total_le_lastTotal (hchain.imp fun _ _ => Follows.advances)
        have hgrows := follows.grows
        rw [List.map_append, List.sum_append, lostGrowth, lastTotal]
        omega

/-- No growth is lost exactly when every reading that the counter moves on from
is kept. -/
theorem lostGrowth_eq_zero_iff {speed : UInt64} {width : Nat} {first : Reading}
    {rest : List Reading} (chain : List.IsChain (Follows speed width) (first :: rest)) :
    lostGrowth (first :: rest) = 0 ↔
      List.IsChain (fun earlier later => earlier.total < later.total → earlier.Kept)
        (first :: rest) := by
  induction rest generalizing first with
  | nil => exact iff_of_true rfl (List.isChain_singleton _)
  | cons later rest ih =>
      obtain ⟨follows, hchain⟩ := List.isChain_cons_cons.mp chain
      rw [List.isChain_cons_cons, ← ih hchain, lostGrowth, Nat.add_eq_zero_iff]
      refine and_congr_left fun _ => ?_
      by_cases kept : first.Kept
      · rw [if_pos kept]
        exact iff_of_true rfl fun _ => kept
      · rw [if_neg kept, Nat.sub_eq_zero_iff_le]
        constructor
        · exact fun hle hmoved => absurd hmoved (Nat.not_lt.mpr hle)
        · exact fun hkept => Nat.le_of_not_lt fun hmoved => kept (hkept hmoved)

/-- A counter that has never been polled pushes nothing for its first sample. -/
theorem valueOf_fresh {row : Queryrow} {width : Nat} (counter : IsCounter row.bits width)
    (hfresh : row.cachedTime = 0) (sample : Sample) : valueOf row sample = .ok none := by
  rw [valueOf, if_neg]
  rintro (hgauge | htime)
  · exact counter.ne_gauge hgauge
  · exact htime hfresh

/-- Over any polls of a host, the values pushed for a counter row add up to the
counter's growth between its first and its last successful get exactly when the
row was never read at zero, nor at time zero, just before the counter moved on. -/
theorem traffic_conserved_iff {Handle : Type} {sessOpen : SessOpen Handle} {maxErrors : UInt32}
    {host final : Queryhost} {polls : List (Nat → Reply)} {history : List Event}
    (hpolls : pollHost sessOpen maxErrors host polls = .ok (final, history))
    {number : Nat} {row : Queryrow} (hrow : host.rows[number]? = some row)
    {width : Nat} (counter : IsCounter row.bits width) (hfresh : row.cachedTime = 0)
    {first : Reading} {rest : List Reading}
    (hsamples : samplesOf number history = (first :: rest).map Reading.sample)
    (shows : ∀ reading ∈ first :: rest, reading.Shows width)
    (chain : List.IsChain (Follows row.speed width) (first :: rest)) :
    ((valuesOf number history).map fun inserted => inserted.counter.toNat).sum =
        lastTotal first rest - first.total ↔
      List.IsChain (fun earlier later => earlier.total < later.total → earlier.Kept)
        (first :: rest) := by
  obtain ⟨reached, _, hfed⟩ := pollHost_feeds hpolls hrow
  obtain ⟨after, values, hfeed, hsum⟩ :=
    @feed_conserves (row.cache first.sample) width counter first rest shows chain rfl rfl
  have hall : feed row ((first :: rest).map Reading.sample) = .ok (after, values) := by
    change (valueOf row first.sample >>= fun _ => feed _ _ >>= fun _ => _) = _
    rw [valueOf_fresh counter hfresh, ok_bind, hfeed]
    rfl
  rw [hsamples, hall] at hfed
  rw [← (Prod.mk.inj (Except.ok.inj hfed)).2, ← lostGrowth_eq_zero_iff chain]
  omega

/-- A 32-bit counter row that has never been polled. -/
def freshRow : Queryrow where
  oid := some (CString.ofString "1.3.6.1.2.1.2.2.1.10.13")
  table := some (CString.ofString "data")
  id := 55
  bits := 32
  speed := 4166666
  cachedCounter := 0
  cachedTime := 0

/-- A failed get between a reading just below the wrap and one just above it
only delays the growth of ten. -/
theorem traffic_conserved_across_wrap :
    ∃ final history,
      pollHost (fun _ _ _ => some ()) 3 (singleHost freshRow)
        [answers 4294967290 300, fun _ => none, answers 4 900] = .ok (final, history) ∧
      ((valuesOf 0 history).map fun inserted => inserted.counter.toNat).sum = 10 := by
  refine ⟨_, _, rfl, ?_⟩
  refine (@traffic_conserved_iff Unit (fun _ _ _ => some ()) 3 (singleHost freshRow) _
    [answers 4294967290 300, fun _ => none, answers 4 900] _ rfl 0 freshRow rfl 32
    ⟨rfl, Or.inl rfl⟩ rfl ⟨4294967290, ⟨4294967290, 300⟩⟩ [⟨4294967300, ⟨4, 900⟩⟩]
    rfl ?_ ?_).mpr ?_
  · intro reading hreading
    rcases List.mem_cons.mp hreading with rfl | hlast
    · rfl
    · rw [List.mem_singleton.mp hlast]
      rfl
  · exact List.isChain_cons_cons.mpr ⟨⟨by decide, by decide, by decide, by decide, by decide⟩,
      List.isChain_singleton _⟩
  · exact List.isChain_cons_cons.mpr ⟨fun _ => ⟨by decide, by decide⟩, List.isChain_singleton _⟩

/-- The counter passes its wrap so that it is read at exactly zero once. -/
def zeroReadings : List Reading :=
  [⟨4294967295, ⟨4294967295, 300⟩⟩, ⟨4294967296, ⟨0, 600⟩⟩, ⟨4294967301, ⟨5, 900⟩⟩]

/-- A reading of exactly zero drops the growth that follows it: of a growth of
six, one is pushed. -/
theorem zero_reading_loses_growth :
    (∀ reading ∈ zeroReadings, reading.Shows 32) ∧
    List.IsChain (Follows freshRow.speed 32) zeroReadings ∧
    ∃ final history,
      pollHost (fun _ _ _ => some ()) 3 (singleHost freshRow)
        [answers 4294967295 300, answers 0 600, answers 5 900] = .ok (final, history) ∧
      samplesOf 0 history = zeroReadings.map Reading.sample ∧
      ((valuesOf 0 history).map fun inserted => inserted.counter.toNat).sum = 1 ∧
      4294967301 - 4294967295 ≠ 1 := by
  refine ⟨?_, ?_, _, _, rfl, rfl, rfl, by decide⟩
  · intro reading hreading
    simp only [zeroReadings, List.mem_cons, List.not_mem_nil, or_false] at hreading
    rcases hreading with rfl | rfl | rfl <;> rfl
  · refine List.isChain_cons_cons.mpr
      ⟨?_, List.isChain_cons_cons.mpr ⟨?_, List.isChain_singleton _⟩⟩
    · exact ⟨by decide, by decide, by decide, by decide, by decide⟩
    · exact ⟨by decide, by decide, by decide, by decide, by decide⟩

end ClusteredPoller.Poller
