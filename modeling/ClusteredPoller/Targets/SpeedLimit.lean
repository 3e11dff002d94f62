import ClusteredPoller.Poller.SpeedCheck
import ClusteredPoller.Targets.Reload

/-!
# The speed limit of old-style rows

`read_old_style_targets` sets the speed of a row to `(unsigned) 10e9 / 8` over
the interval, and `get_clinserts` compares it with a rate in bytes per second.
The conversion leaves at most 32 bits, so the limit is below half of 10 Gbit/s
even for an interval of one second.
-/

namespace ClusteredPoller.Targets

open Poller

/-- 10 Gbit/s in bytes per second. -/
def tenGigabit : Nat := 10 ^ 10 / 8

/-- Every poll that gets this sample for the row pushes a value for it. -/
def PushesSample (row : Queryrow) (sample : Sample) : Prop :=
  ∀ (Handle : Type) (sessOpen : SessOpen Handle) (replies : Nat → Reply) (host : Queryhost)
    (maxErrors : UInt32) (number : Nat) (polled : Polled),
    host.rows[number]? = some row →
    getClinserts sessOpen replies host maxErrors = .ok polled →
    Event.got number sample ∈ polled.history → valuesOf number polled.history ≠ []

/-- Every sample behind an earlier one, of a rate below 10 Gbit/s, is pushed. -/
def LimitIsTenGigabit (row : Queryrow) : Prop :=
  ∀ previous sample : Sample, 0 < previous.counter → previous.dtime ≠ 0 →
    previous.dtime < sample.dtime → exactRate (row.cache previous) sample < tenGigabit →
    PushesSample (row.cache previous) sample

theorem pushesSample_iff {row : Queryrow} {sample : Sample} {value : Option ClinsertValue}
    (hvalue : valueOf row sample = .ok value) : PushesSample row sample ↔ value ≠ none := by
  constructor
  · rintro hpushes rfl
    obtain ⟨polled, hpoll, hgot, hvalues⟩ := poll_singleHost hvalue
    exact hpushes Unit _ _ _ _ 0 polled rfl hpoll hgot hvalues
  · intro hsome Handle sessOpen replies host maxErrors number polled hrow hpoll hgot
    obtain ⟨other, hother, hvalues⟩ := valuesOf_got hpoll hrow hgot
    rw [hvalue] at hother
    cases hother
    rw [hvalues]
    exact fun hnone => hsome (Option.toList_eq_nil_iff.mp hnone)

section Rows

variable {unspecified : Unspecified} {conf : Rtgconf} {file : File} {targets : Rtgtargets}

/-- All rows have the same speed. -/
theorem oldRow_speed (hinterval : 1 ≤ conf.interval)
    (hread : readOldStyleTargets unspecified file conf = .ok targets) {host : Queryhost}
    (hhost : host ∈ targets.hosts) {row : Queryrow} (hrow : row ∈ host.rows) :
    row.speed = (unspecified.castOf10e9 / 8 / conf.interval).toUInt64 := by
  have hnonzero : conf.interval ≠ 0 := UInt32.pos_iff_ne_zero.mp hinterval
  cases file with
  | none =>
      cases hread
      cases hhost
  | some text =>
      rw [readOldStyleTargets_eq (if_neg hnonzero)] at hread
      cases hread
      obtain ⟨group, -, rfl⟩ := List.mem_map.mp hhost
      obtain ⟨fields, -, rfl⟩ := List.mem_map.mp hrow
      rfl

/-- The limit is below half of 10 Gbit/s. -/
theorem oldLimit_le (cast interval : UInt32) : (cast / 8 / interval).toNat ≤ 536870911 := by
  rw [UInt32.toNat_div, UInt32.toNat_div]
  have hcast := cast.toNat_lt
  have heighth : cast.toNat / (8 : UInt32).toNat ≤ 536870911 := by
    change cast.toNat / 8 ≤ _
    omega
  exact Nat.le_trans (Nat.div_le_self _ _) heighth

/-- What decides about a sample below 10 Gbit/s. -/
theorem pushes_iff {row : Queryrow} {previous sample : Sample} (hcounter : 0 < previous.counter)
    (hlater : previous.dtime < sample.dtime)
    (hrate : exactRate (row.cache previous) sample < tenGigabit) :
    PushesSample (row.cache previous) sample ↔
      (row.bits = 0 ∨ previous.dtime ≠ 0) ∧
        exactRate (row.cache previous) sample < row.speed.toNat := by
  obtain ⟨value, hvalue, hnone, -⟩ := @valueOf_exact (row.cache previous) sample hlater
  have hnarrow : exactRate (row.cache previous) sample % 2 ^ 32 =
      exactRate (row.cache previous) sample :=
    Nat.mod_eq_of_lt (Nat.lt_trans hrate (by decide))
  have hprevious : HasPrevious (row.cache previous) sample ↔
      (row.bits = 0 ∨ previous.dtime ≠ 0) := and_iff_left (Or.inl hcounter)
  rw [pushesSample_iff hvalue, Ne, hnone, not_not, hnarrow, hprevious]
  rfl

/-- A sample of about 8 Gbit/s, which is too fast for every limit. -/
theorem not_limitIsTenGigabit {row : Queryrow} (hspeed : row.speed.toNat ≤ 536870911) :
    ¬ LimitIsTenGigabit row := by
  intro hall
  have hrate : 1000000000 ≤ exactRate (row.cache ⟨1, 1⟩) ⟨1000000001, 2⟩ ∧
      exactRate (row.cache ⟨1, 1⟩) ⟨1000000001, 2⟩ < tenGigabit := by
    unfold exactRate exactGrowth
    by_cases hgauge : (row.cache ⟨1, 1⟩).bits = 0
    · rw [if_pos hgauge]
      decide
    · have hgrown : ¬ (row.cache ⟨1, 1⟩).cachedCounter > (⟨1000000001, 2⟩ : Sample).counter :=
        show ¬ (1 : UInt64) > 1000000001 by decide
      rw [if_neg hgauge, if_neg hgauge, if_neg hgrown]
      change 1000000000 ≤ ((1000000001 : UInt64) - 1).toNat / ((2 : Int) - 1).toNat ∧
        ((1000000001 : UInt64) - 1).toNat / ((2 : Int) - 1).toNat < tenGigabit
      decide
  have hpushes := hall ⟨1, 1⟩ ⟨1000000001, 2⟩ (by decide) (by decide) (by decide) hrate.2
  rw [pushes_iff (by decide) (by decide) hrate.2] at hpushes
  omega

end Rows

/-- A sample below 10 Gbit/s is pushed exactly if it is also below the limit,
which no interval brings up to 10 Gbit/s. -/
theorem old_row_limit_iff {unspecified : Unspecified} {conf : Rtgconf} {file : File}
    {targets : Rtgtargets} (hinterval : 1 ≤ conf.interval)
    (hread : readOldStyleTargets unspecified file conf = .ok targets) {host : Queryhost}
    (hhost : host ∈ targets.hosts) {row : Queryrow} (hrow : row ∈ host.rows) :
    (∀ previous sample : Sample, 0 < previous.counter → previous.dtime < sample.dtime →
      exactRate (row.cache previous) sample < tenGigabit →
      (PushesSample (row.cache previous) sample ↔
        (row.bits = 0 ∨ previous.dtime ≠ 0) ∧
          exactRate (row.cache previous) sample <
            (unspecified.castOf10e9 / 8 / conf.interval).toNat)) ∧
      ¬ LimitIsTenGigabit row := by
  have hspeed : row.speed.toNat = (unspecified.castOf10e9 / 8 / conf.interval).toNat := by
    rw [oldRow_speed hinterval hread hhost hrow, UInt32.toNat_toUInt64]
  constructor
  · intro previous sample hcounter hlater hrate
    rw [pushes_iff hcounter hlater hrate, hspeed]
  · exact not_limitIsTenGigabit (hspeed ▸ oldLimit_le _ _)

/-- A file of one record. -/
def fastRecord : List Char := "a\t.1\t64\tpublic\tt\t1\n".toList

/-- Its row, with the largest limit that the conversion can leave. -/
def fastRow : Queryrow where
  oid := some (CString.ofMemory ['.', '1'])
  table := some (CString.ofMemory ['t'])
  id := 1
  bits := 64
  speed := 536870911
  cachedCounter := 0
  cachedTime := 0

def fastHost : Queryhost where
  host := some (CString.ofMemory ['a'])
  community := some (CString.ofMemory "public".toList)
  snmpver := 2
  rows := [fastRow]

/-- With a poll each second. -/
def everySecond : Rtgconf := { defaultRtgconf with interval := 1 }

theorem readOldStyleTargets_fastRecord :
    readOldStyleTargets ⟨4294967295, fun _ => 0⟩ (some fastRecord) everySecond =
      .ok { hosts := [fastHost], ntargets := 1 } := by
  decide +kernel

/-- 4.8 Gbit/s are too much for it. -/
theorem fastRow_keeps_out :
    ∃ targets, readOldStyleTargets ⟨4294967295, fun _ => 0⟩ (some fastRecord) everySecond =
        .ok targets ∧
      ∃ host ∈ targets.hosts, ∃ row ∈ host.rows,
        exactRate (row.cache ⟨1, 300⟩) ⟨600000001, 301⟩ < tenGigabit ∧
          ¬ PushesSample (row.cache ⟨1, 300⟩) ⟨600000001, 301⟩ := by
  refine ⟨_, readOldStyleTargets_fastRecord, fastHost, List.mem_singleton.mpr rfl, fastRow,
    List.mem_singleton.mpr rfl, by decide, ?_⟩
  have hvalue : valueOf (fastRow.cache ⟨1, 300⟩) ⟨600000001, 301⟩ = .ok none := by decide
  rw [pushesSample_iff hvalue]
  exact fun hne => hne rfl

/-- And 4 Gbit/s are not. -/
theorem old_row_limit_fastRow : PushesSample (fastRow.cache ⟨1, 300⟩) ⟨500000001, 301⟩ := by
  obtain ⟨hlimit, -⟩ := old_row_limit_iff (by decide) readOldStyleTargets_fastRecord
    (List.mem_singleton.mpr rfl) (List.mem_singleton.mpr rfl)
  exact (hlimit ⟨1, 300⟩ ⟨500000001, 301⟩ (by decide) (by decide) (by decide)).mpr
    ⟨Or.inr (by decide), by decide⟩

end ClusteredPoller.Targets
