import ClusteredPoller.Targets.CopyCache

/-!
# Reloading an unchanged file

A reload reads the targets again and copies the caches of the old ones.  The
new-style reader makes a host of each block, with distinct OIDs; the old-style
reader makes distinct hosts, with a row of each record.
-/

namespace ClusteredPoller.Targets

open Poller
open Library.Grouping (grouped grouped_distinct pairwise_grouped_iff)

/-- The records of a file that is read as an old-style one. -/
def fileRecords (file : File) : List Fields := file.elim [] recordsOf

/-- No block with a target has the name of an earlier one; and if the file has
no blocks, then no two records have the same host and OID. -/
def ReloadSafe (unspecified : Unspecified) (file : File) : Prop :=
  (fileBlocks unspecified file).Pairwise
      (fun earlier block => block.hasTarget = true → earlier.name ≠ block.name) ∧
    (fileBlocks unspecified file = [] →
      (fileRecords file).Pairwise fun earlier record =>
        earlier.host = record.host → earlier.oid ≠ record.oid)

instance (unspecified : Unspecified) (file : File) : Decidable (ReloadSafe unspecified file) := by
  unfold ReloadSafe
  infer_instance

/-! ## New-style files -/

section NewStyle

variable {conf : Rtgconf} {blocks : List HostBlock} {hosts : List Queryhost}
  (hall : List.Forall₂ (fun block host => HostBlock.eval conf block = .ok host) blocks hosts)

include hall

theorem eval_fresh_of_mem {host : Queryhost} (hhost : host ∈ hosts) :
    ∃ block ∈ blocks, FreshHost block.name host := by
  obtain ⟨index, hindex, rfl⟩ := List.getElem_of_mem hhost
  have hbound : index < blocks.length := hall.length_eq ▸ hindex
  exact ⟨blocks[index], List.getElem_mem hbound, (HostBlock.eval_fresh (hall.get hbound hindex)).1⟩

theorem names_eval_iff : hosts.Pairwise FirstOfName ↔
    blocks.Pairwise fun earlier block => block.hasTarget = true → earlier.name ≠ block.name := by
  have hlength := hall.length_eq
  have hname : ∀ index (hblock : index < blocks.length) (hhost : index < hosts.length),
      hosts[index].host = some blocks[index].name ∧
        (hosts[index].rows = [] ↔ blocks[index].hasTarget = false) := by
    intro index hblock hhost
    obtain ⟨hfresh, hrows⟩ := HostBlock.eval_fresh (hall.get hblock hhost)
    exact ⟨hfresh.named, hrows⟩
  have hsame : ∀ earlier index (hearlier : earlier < blocks.length) (hindex : index < blocks.length)
      (hother : earlier < hosts.length) (hhost : index < hosts.length),
      FirstOfName hosts[earlier] hosts[index] ↔
        (blocks[index].hasTarget = true → blocks[earlier].name ≠ blocks[index].name) := by
    intro earlier index hearlier hindex hother hhost
    obtain ⟨hfirst, -⟩ := hname earlier hearlier hother
    obtain ⟨hsecond, hrows⟩ := hname index hindex hhost
    simp [FirstOfName, hfirst, hsecond, hrows]
  rw [List.pairwise_iff_getElem, List.pairwise_iff_getElem]
  constructor
  · intro hpairwise earlier index hearlier hindex hlt
    exact (hsame earlier index hearlier hindex (by omega) (by omega)).mp
      (hpairwise earlier index (by omega) (by omega) hlt)
  · intro hpairwise earlier index hearlier hindex hlt
    exact (hsame earlier index (by omega) (by omega) hearlier hindex).mpr
      (hpairwise earlier index (by omega) (by omega) hlt)

end NewStyle

/-! ## Old-style files -/

/-- What the old-style reader returns, it made of the records of the file. -/
theorem readOldStyleTargets_ok {unspecified : Unspecified} {file : File} {conf : Rtgconf}
    {targets : Rtgtargets} (hread : readOldStyleTargets unspecified file conf = .ok targets) :
    ∃ speed, targets = oldTargets speed (fileRecords file) := by
  cases file with
  | none =>
      cases hread
      exact ⟨0, by simp [fileRecords, oldTargets, grouped, rtgtargetsCreate]⟩
  | some text =>
      by_cases hinterval : conf.interval = 0
      · by_cases hrecords : recordsOf text = []
        · rw [readOldStyleTargets_nothing hrecords] at hread
          cases hread
          exact ⟨0, by simp [fileRecords, hrecords, oldTargets, grouped, rtgtargetsCreate]⟩
        · rw [readOldStyleTargets_divides hinterval hrecords] at hread
          cases hread
      · rw [readOldStyleTargets_eq (if_neg hinterval)] at hread
        cases hread
        exact ⟨_, rfl⟩

theorem oldTargets_fresh (speed : UInt64) (records : List Fields) :
    FreshTargets (oldTargets speed records) := by
  intro host hhost
  obtain ⟨group, -, rfl⟩ := List.mem_map.mp hhost
  refine ⟨rfl, fun row hrow => ?_⟩
  obtain ⟨fields, -, rfl⟩ := List.mem_map.mp hrow
  exact ⟨rfl, rfl⟩

theorem oldTargets_unique_iff (speed : UInt64) (records : List Fields) :
    LookupsUnique (oldTargets speed records) ↔
      records.Pairwise fun earlier record =>
        earlier.host = record.host → earlier.oid ≠ record.oid := by
  have hoids : ∀ group, ((oldHost speed group).rows.map Queryrow.oid).Nodup ↔
      group.items.Pairwise fun earlier record => earlier.oid ≠ record.oid := by
    intro group
    simp [oldHost, List.Nodup, List.pairwise_map, oldRow]
  rw [← pairwise_grouped_iff]
  constructor
  · intro hunique group hgroup
    exact (hoids group).mp (hunique.oids _ (List.mem_map_of_mem hgroup))
  · intro hrecords
    constructor
    · intro host hhost
      obtain ⟨group, hgroup, rfl⟩ := List.mem_map.mp hhost
      exact (hoids group).mpr (hrecords group hgroup)
    · simp only [oldTargets, List.pairwise_map]
      refine (grouped_distinct records).imp fun hne _ heq => hne ?_
      simpa [oldHost] using heq

/-! ## Both -/

/-- What `rtgtargets_parse` returns is fresh, and lookups reach all its rows
exactly if the file is safe to reload. -/
theorem rtgtargetsParse_unique_iff {unspecified : Unspecified} {file : File} {conf : Rtgconf}
    {targets : Rtgtargets} (hparse : rtgtargetsParse unspecified file conf = .ok targets) :
    FreshTargets targets ∧ (LookupsUnique targets ↔ ReloadSafe unspecified file) := by
  rw [rtgtargetsParse_blocks] at hparse
  by_cases hblocks : fileBlocks unspecified file = []
  · have hsafe : ReloadSafe unspecified file ↔
        (fileRecords file).Pairwise fun earlier record =>
          earlier.host = record.host → earlier.oid ≠ record.oid := by
      simp [ReloadSafe, hblocks]
    rw [if_pos hblocks] at hparse
    obtain ⟨speed, rfl⟩ := readOldStyleTargets_ok hparse
    rw [hsafe]
    exact ⟨oldTargets_fresh speed _, oldTargets_unique_iff speed _⟩
  · rw [if_neg hblocks] at hparse
    obtain ⟨hosts, hhosts, hall⟩ := evalBlocks_ok hparse
    simp only [rtgtargetsCreate, List.nil_append] at hhosts
    have hfresh : ∀ host ∈ targets.hosts, ∃ name, FreshHost name host := by
      intro host hhost
      obtain ⟨block, -, hblock⟩ := eval_fresh_of_mem hall (hhosts ▸ hhost)
      exact ⟨block.name, hblock⟩
    constructor
    · intro host hhost
      obtain ⟨name, hname⟩ := hfresh host hhost
      exact ⟨by simp [hname.named], hname.rows⟩
    · have hnames := names_eval_iff hall
      rw [← hhosts] at hnames
      simp only [ReloadSafe, hblocks, false_implies, and_true, ← hnames]
      constructor
      · exact fun hunique => hunique.names
      · intro hpairwise
        constructor
        · intro host hhost
          obtain ⟨name, hname⟩ := hfresh host hhost
          exact hname.distinct
        · exact hpairwise

/-- A reload of an unchanged file gives every row its caches back, whatever
they are, exactly if the file is safe to reload. -/
theorem reload_keeps_caches_iff {first second : Unspecified} {file : File} {conf : Rtgconf}
    {old new : Rtgtargets} (hold : rtgtargetsParse first file conf = .ok old)
    (hnew : rtgtargetsParse second file conf = .ok new) :
    (∀ cached, rtgtargetsCopyCache new (old.withCaches cached) = .ok (new.withCaches cached)) ↔
      ReloadSafe second file := by
  obtain ⟨hfresh, hunique⟩ := rtgtargetsParse_unique_iff hnew
  have halike := (rtgtargetsParse_alike first second file conf).of_ok hold hnew
  rw [copyCache_iff halike hfresh, hunique]

/-! ## A host in two blocks -/

/-- The blocks of `repeatedFile`, as hosts. -/
def repeatedHost (oid : CString) : Queryhost where
  host := some (CString.ofString "router")
  community := none
  snmpver := 2
  rows := [{ queryrowCreate with oid := some oid }]

def repeatedFile : File :=
  some "host router \x7b snmpver 2; target 1.5 \x7b \x7d; \x7d;
    host router \x7b snmpver 2; target 1.6 \x7b \x7d; \x7d;".toList

def repeatedTargets : Rtgtargets where
  hosts := [repeatedHost (CString.ofString "1.5"), repeatedHost (CString.ofString "1.6")]
  ntargets := 2

/-- The rows of the second block are looked for in the host of the first one. -/
theorem repeated_host_loses_caches :
    rtgtargetsParse ⟨0, fun _ => 0⟩ repeatedFile defaultRtgconf = .ok repeatedTargets ∧
      rtgtargetsCopyCache repeatedTargets (repeatedTargets.withCaches fun _ _ => ⟨300, 1000⟩) =
        .ok { repeatedTargets with
              hosts := [Queryhost.withCaches (fun _ => ⟨300, 1000⟩)
                  (repeatedHost (CString.ofString "1.5")),
                repeatedHost (CString.ofString "1.6")] } ∧
      ¬ ∀ cached, rtgtargetsCopyCache repeatedTargets (repeatedTargets.withCaches cached) =
        .ok (repeatedTargets.withCaches cached) := by
  refine ⟨by decide +kernel, by decide +kernel, fun hkeeps => ?_⟩
  have himpossible := hkeeps fun _ _ => ⟨300, 1000⟩
  revert himpossible
  decide +kernel

def singleFile : File := some "switch\t1.7\t32\tcampus\tifHCInOctets_7\t3\n".toList

/-- What two readings of `singleFile` give. -/
def singleTargets : Rtgtargets where
  hosts :=
    [ { host := some (CString.ofString "switch")
        community := some (CString.ofString "campus")
        snmpver := 2
        rows :=
          [ { queryrowCreate with
              oid := some (CString.ofString "1.7")
              table := some (CString.ofString "ifHCInOctets_7")
              id := 3
              bits := 32 } ] } ]
  ntargets := 1

theorem reload_keeps_caches_single :
    rtgtargetsCopyCache singleTargets (singleTargets.withCaches fun _ _ => ⟨300, 1000⟩) =
      .ok (singleTargets.withCaches fun _ _ => ⟨300, 1000⟩) := by
  have hread : rtgtargetsParse ⟨0, fun _ => 0⟩ singleFile defaultRtgconf = .ok singleTargets := by
    decide +kernel
  exact (reload_keeps_caches_iff hread hread).mpr (by decide +kernel) fun _ _ => ⟨300, 1000⟩

end ClusteredPoller.Targets
