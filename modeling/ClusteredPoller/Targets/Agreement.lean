import ClusteredPoller.Targets.OldStyleText
import ClusteredPoller.Targets.RoundTrip
import ClusteredPoller.Targets.Speeds

/-!
# The two formats say the same

A list of records can be written in either format.  Both readers give the same
hosts and rows, but for the speeds, unless a record repeats another one of its
host: the new-style reader drops it, and the old-style reader keeps it.
-/

namespace ClusteredPoller.Targets

open Poller
open Library.Grouping (KeyGroup grouped grouped_map grouped_eq_nil_iff length_grouped
  pairwise_grouped_iff)

/-! ## Records in the new style -/

def hostKey (record : LineRecord) : CString := record.host.text

def newTarget (speed : LineRecord → UInt64) (record : LineRecord) : TargetText where
  oid := record.oid.toArgument
  bits := record.bits
  table := record.table.toArgument
  id := record.id
  speed := speed record

/-- The block of a host, with the community of its first record. -/
def newHost (speed : LineRecord → UInt64) (group : KeyGroup LineRecord) : HostText where
  name :=
    { text := group.first.host.text
      nonempty := group.first.host.nonempty
      noSpace := group.first.host.noSpace
      fits := Nat.le_trans group.first.host.fits (by decide) }
  community := group.first.community.toArgument
  snmpver := 2
  snmpver_lower := by decide
  snmpver_upper := by decide
  targets := group.items.map (newTarget speed)

/-- A block for each host, in the order in which the hosts first occur. -/
def newHosts (speed : LineRecord → UInt64) (records : List LineRecord) : List HostText :=
  (grouped hostKey records).map (newHost speed)

/-- Neither the OID nor the table and number of an earlier record of the host. -/
def LineRecord.Differs (earlier record : LineRecord) : Prop :=
  earlier.oid.text ≠ record.oid.text ∧
    ¬ (earlier.table.text = record.table.text ∧ earlier.id = record.id)

/-- No two records of one host repeat each other. -/
def NoRepeats (records : List LineRecord) : Prop :=
  records.Pairwise fun earlier record => hostKey earlier = hostKey record → earlier.Differs record

/-! ## One host -/

theorem differs_newTargets_iff (speed : LineRecord → UInt64) (group : KeyGroup LineRecord) :
    (newHost speed group).targets.Pairwise TargetText.Differs ↔
      group.items.Pairwise LineRecord.Differs := by
  simp only [newHost, List.pairwise_map]
  rfl

theorem hostAlike_iff (conf : Rtgconf) (oldSpeed : UInt64) (speed : LineRecord → UInt64)
    (group : KeyGroup LineRecord) :
    HostAlike (oldHost oldSpeed (group.map LineRecord.lineFields))
        (hostOf conf (newHost speed group)) ↔
      group.items.Pairwise LineRecord.Differs := by
  rw [← differs_newTargets_iff speed]
  constructor
  · intro halike
    have hlength := halike.rows.length_eq
    have hpairwise := @pairwise_of_foldl_addRow (emptyHostOf (newHost speed group))
      ((newHost speed group).targets.map (rowOf conf)) List.Pairwise.nil (by
        rw [← hostOf, ← hlength]
        simp [oldHost, emptyHostOf, newHost])
    rw [emptyHostOf, List.nil_append, List.pairwise_map] at hpairwise
    exact hpairwise.imp fun hrepeats => (repeats_rowOf_iff conf _ _).mp hrepeats
  · intro hdistinct
    rw [hostOf_distinct hdistinct]
    constructor
    · rfl
    · rfl
    · rfl
    · simp only [oldHost, newHost, KeyGroup.map_items, List.map_map,
        List.forall₂_map_left_iff, List.forall₂_map_right_iff]
      refine List.forall₂_same.mpr fun record _ => ?_
      change RowAlike (oldRow (record.toRecord.fields record.tail) oldSpeed)
        (rowOf conf (newTarget speed record))
      rw [record.oldRow_fields _ record.isTail]
      rfl

/-! ## Files -/

theorem fileBlocks_oldText (unspecified : Unspecified) (records : List LineRecord) :
    fileBlocks unspecified (some (oldText records)) = [] :=
  hostBlocks_oldText unspecified records

theorem rtgtargetsParse_oldText {unspecified : Unspecified} {conf : Rtgconf}
    (hinterval : conf.interval ≠ 0) (records : List LineRecord) :
    rtgtargetsParse unspecified (some (oldText records)) conf =
      .ok { hosts := (grouped hostKey records).map fun group =>
              oldHost (unspecified.castOf10e9 / 8 / conf.interval).toUInt64
                (group.map LineRecord.lineFields)
            ntargets := UInt32.ofNat records.length } := by
  rw [rtgtargetsParse_blocks, if_pos (fileBlocks_oldText unspecified records),
    readOldStyleTargets_eq (if_neg hinterval), recordsOf_oldText, oldTargets, grouped_map,
    List.map_map, List.length_map]
  rfl

theorem rtgtargetsParse_newHosts (unspecified : Unspecified) {conf : Rtgconf}
    (hinterval : conf.interval ≠ 0) (layout : Layout) (speed : LineRecord → UInt64)
    (records : List LineRecord) :
    rtgtargetsParse unspecified (some (layout.render (newHosts speed records))) conf =
      .ok { hosts := (grouped hostKey records).map fun group => hostOf conf (newHost speed group)
            ntargets := UInt32.ofNat ((grouped hostKey records).map fun group =>
              (hostOf conf (newHost speed group)).rows.length).sum } := by
  cases records with
  | nil =>
      have hempty := @rtgtargetsParse_oldText unspecified conf hinterval []
      simpa [newHosts, grouped, Layout.render, oldText] using hempty
  | cons record records =>
      have hne : newHosts speed (record :: records) ≠ [] := by
        simp [newHosts, grouped_eq_nil_iff]
      rw [rtgtargetsParse_render unspecified hinterval layout hne]
      simp [newHosts, Function.comp_def]

theorem rtgtargetsParse_nothing (unspecified : Unspecified) (conf : Rtgconf) :
    rtgtargetsParse unspecified (some []) conf = .ok rtgtargetsCreate := by
  have hblocks : fileBlocks unspecified (some []) = [] := hostBlocks_end rfl
  have hrecords : recordsOf [] = [] := by
    simp [recordsOf, recordLines, fgetsAll_nil]
  rw [rtgtargetsParse_blocks, if_pos hblocks, readOldStyleTargets_nothing hrecords]

theorem targetsAlike_iff (conf : Rtgconf) (oldSpeed : UInt64) (speed : LineRecord → UInt64)
    (records : List LineRecord) :
    TargetsAlike
        { hosts := (grouped hostKey records).map fun group =>
            oldHost oldSpeed (group.map LineRecord.lineFields)
          ntargets := UInt32.ofNat records.length }
        { hosts := (grouped hostKey records).map fun group => hostOf conf (newHost speed group)
          ntargets := UInt32.ofNat ((grouped hostKey records).map fun group =>
            (hostOf conf (newHost speed group)).rows.length).sum } ↔
      NoRepeats records := by
  rw [NoRepeats, ← pairwise_grouped_iff]
  constructor
  · intro halike group hgroup
    have hhosts := halike.hosts
    simp only [List.forall₂_map_left_iff, List.forall₂_map_right_iff, List.forall₂_same] at hhosts
    exact (hostAlike_iff conf oldSpeed speed group).mp (hhosts group hgroup)
  · intro hdistinct
    have hhosts : ∀ group ∈ grouped hostKey records,
        HostAlike (oldHost oldSpeed (group.map LineRecord.lineFields))
          (hostOf conf (newHost speed group)) := fun group hgroup =>
      (hostAlike_iff conf oldSpeed speed group).mpr (hdistinct group hgroup)
    constructor
    · simpa only [List.forall₂_map_left_iff, List.forall₂_map_right_iff, List.forall₂_same]
        using hhosts
    · have hlengths : ((grouped hostKey records).map fun group =>
            (hostOf conf (newHost speed group)).rows.length) =
          (grouped hostKey records).map fun group => group.items.length := by
        refine List.map_congr_left fun group hgroup => ?_
        rw [← (hhosts group hgroup).rows.length_eq]
        simp [oldHost]
      simp only [hlengths, length_grouped]

/-- The readings of both texts agree, but for the speeds, exactly if there is
an interval to divide by, or nothing to divide, and no two records of one host
repeat each other. -/
theorem formats_agree_iff (first second : Unspecified) (conf : Rtgconf) (layout : Layout)
    (speed : LineRecord → UInt64) (records : List LineRecord) :
    (∃ old new, rtgtargetsParse first (some (oldText records)) conf = .ok old ∧
        rtgtargetsParse second (some (layout.render (newHosts speed records))) conf = .ok new ∧
          TargetsAlike old new) ↔
      (conf.interval ≠ 0 ∨ records = []) ∧ NoRepeats records := by
  by_cases hempty : records = []
  · subst hempty
    constructor
    · exact fun _ => ⟨Or.inr rfl, List.Pairwise.nil⟩
    · intro _
      have hnew : layout.render (newHosts speed []) = [] := by
        simp [newHosts, grouped, Layout.render]
      rw [hnew, oldText]
      exact ⟨_, _, rtgtargetsParse_nothing first conf, rtgtargetsParse_nothing second conf,
        .nil, rfl⟩
  · by_cases hinterval : conf.interval = 0
    · have hrecords : recordsOf (oldText records) ≠ [] := by
        simp [recordsOf_oldText, hempty]
      have hold : rtgtargetsParse first (some (oldText records)) conf =
          .error .divisionByZero := by
        rw [rtgtargetsParse_blocks, if_pos (fileBlocks_oldText first records),
          readOldStyleTargets_divides hinterval hrecords]
      simp [hold, hinterval, hempty]
    · rw [rtgtargetsParse_oldText hinterval, rtgtargetsParse_newHosts second hinterval]
      constructor
      · rintro ⟨old, new, hold, hnew, halike⟩
        cases hold
        cases hnew
        exact ⟨Or.inl hinterval, (targetsAlike_iff conf _ speed records).mp halike⟩
      · rintro ⟨-, hdistinct⟩
        exact ⟨_, _, rfl, rfl, (targetsAlike_iff conf _ speed records).mpr hdistinct⟩

/-! ## A repeated OID -/

def field (argument : Argument) (noHash : '#' ∉ argument.text.chars := by decide)
    (notHost : argument.text.toLower ≠ Keyword.host := by decide) : Field :=
  { argument with noHash := noHash, notHost := notHost }

/-- One counter of a host, recorded under a number. -/
def errorCounter (id : UInt32) : Record where
  host := field (argument (CString.ofString "edge"))
  oid := field (argument (CString.ofString "1.9"))
  bits := 32
  community := field (argument (CString.ofString "private"))
  table := field (argument (CString.ofString "ifInErrors"))
  id := id

def repeatedRecords : List LineRecord :=
  [⟨errorCounter 1, by decide +kernel⟩, ⟨errorCounter 2, by decide +kernel⟩]

/-- The old-style reader keeps both records, the new-style reader only one. -/
theorem repeated_record_kept_and_dropped :
    (rtgtargetsParse ⟨0, fun _ => 0⟩ (some (oldText repeatedRecords)) defaultRtgconf).map
        Rtgtargets.ntargets = .ok 2 ∧
      (rtgtargetsParse ⟨0, fun _ => 0⟩
          (some (documentedLayout.render (newHosts (fun _ => 100) repeatedRecords)))
          defaultRtgconf).map Rtgtargets.ntargets = .ok 1 ∧
      ¬ ∃ old new,
        rtgtargetsParse ⟨0, fun _ => 0⟩ (some (oldText repeatedRecords)) defaultRtgconf = .ok old ∧
          rtgtargetsParse ⟨0, fun _ => 0⟩
              (some (documentedLayout.render (newHosts (fun _ => 100) repeatedRecords)))
              defaultRtgconf = .ok new ∧
            TargetsAlike old new := by
  have hold : (rtgtargetsParse ⟨0, fun _ => 0⟩ (some (oldText repeatedRecords))
      defaultRtgconf).map Rtgtargets.ntargets = .ok 2 := by decide +kernel
  have hnew : (rtgtargetsParse ⟨0, fun _ => 0⟩
      (some (documentedLayout.render (newHosts (fun _ => 100) repeatedRecords)))
      defaultRtgconf).map Rtgtargets.ntargets = .ok 1 := by decide +kernel
  refine ⟨hold, hnew, ?_⟩
  rintro ⟨old, new, hread, hother, halike⟩
  rw [hread] at hold
  rw [hother] at hnew
  have htwo : old.ntargets = 2 := by simpa [Except.map] using hold
  have hone : new.ntargets = 1 := by simpa [Except.map] using hnew
  have hsame := halike.ntargets
  rw [htwo, hone] at hsame
  exact absurd hsame (by decide)

end ClusteredPoller.Targets
