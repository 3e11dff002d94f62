import ClusteredPoller.Targets.Reload

/-!
# Old-style files are grouped by host

What `read_old_style_targets` makes of a file whose lines fit its buffer, told
without the buffer, `strtok` and the current host: the records of the lines,
grouped by their hosts.
-/

namespace ClusteredPoller.Targets

open Poller
open Library.Grouping (KeyGroup having distinctKeys position grouped_eq_distinctKeys
  grouped_distinct length_grouped)
open Library.Lines (lines mem_of_mem_lines)
open Library.Outcome (bind_eq_ok)
open Library.Words (words_eq_splitOnP)

/-! ## The records of the lines -/

/-- What stands between tabs in front of the first `#`, if it is not empty. -/
def lineFields (line : List Char) : List (List Char) :=
  ((line.takeWhile (· ≠ '#')).splitOnP (· = '\t')).filter fun field => !field.isEmpty

/-- The record of at least six fields. -/
def fieldsRecord (fields : List (List Char)) : Option Fields :=
  if hsix : 6 ≤ fields.length then
    some
      { host := CString.ofMemory fields[0]
        oid := CString.ofMemory fields[1]
        bits := CString.ofMemory fields[2]
        community := CString.ofMemory fields[3]
        table := CString.ofMemory fields[4]
        id := CString.ofMemory fields[5] }
  else none

def lineRecord (line : List Char) : Option Fields := fieldsRecord (lineFields line)

def lineRecords (text : List Char) : List Fields := (lines '\n' text).filterMap lineRecord

theorem strtok_strunc {line : List Char} (hnul : '\x00' ∉ line) :
    strtok ['\t'] (strunc (CString.ofMemory line)) = (lineFields line).map CString.ofMemory := by
  have hwhole : line.takeWhile (fun char => decide (char ≠ '\x00')) = line := by
    rw [List.takeWhile_eq_self_iff]
    intro char hchar
    refine decide_eq_true ?_
    rintro rfl
    exact hnul hchar
  have htab : (fun char : Char => ['\t'].contains char) = fun char => decide (char = '\t') := by
    funext char
    simp
  rw [strtok, words_eq_splitOnP, htab, lineFields]
  simp only [strunc, CString.endAt, CString.ofMemory, hwhole]

theorem fieldsOf_eq {line : List Char} (hnul : '\x00' ∉ line) :
    fieldsOf line = lineRecord line := by
  rw [fieldsOf, strtok_strunc hnul, lineRecord]
  rcases lineFields line with _ | ⟨host, _ | ⟨oid, _ | ⟨bits, _ | ⟨community, _ | ⟨table,
    _ | ⟨id, rest⟩⟩⟩⟩⟩⟩ <;> rfl

theorem recordsOf_eq {text : List Char} (hnul : '\x00' ∉ text)
    (hfits : ∀ line ∈ lines '\n' text, line.length < 256) : recordsOf text = lineRecords text := by
  rw [recordsOf, recordLines, fgetsAll_lines (by decide) hfits, lineRecords]
  refine List.filterMap_congr fun line hline => fieldsOf_eq fun hmem => hnul ?_
  exact mem_of_mem_lines hline hmem

/-! ## Their groups -/

/-- The host with a name: the community of its first record, and a row of each. -/
def groupedHost (speed : UInt64) (records : List Fields) (name : CString) : Queryhost where
  host := some name
  community := (having Fields.host name records).head?.map Fields.community
  snmpver := 2
  rows := (having Fields.host name records).map fun fields => oldRow fields speed

def groupedTargets (speed : UInt64) (records : List Fields) : Rtgtargets where
  hosts := (distinctKeys Fields.host records).map (groupedHost speed records)
  ntargets := UInt32.ofNat records.length

theorem oldTargets_eq (speed : UInt64) (records : List Fields) :
    oldTargets speed records = groupedTargets speed records := by
  have hgroups := @grouped_eq_distinctKeys _ _ _ Fields.host records
  let host : CString × List Fields → Queryhost := fun group =>
    { host := some group.1
      community := group.2.head?.map Fields.community
      snmpver := 2
      rows := group.2.map fun fields => oldRow fields speed }
  have hhosts := congrArg (List.map host) hgroups
  rw [List.map_map, List.map_map] at hhosts
  exact congrArg (fun hosts : List Queryhost => Rtgtargets.mk hosts _) hhosts

/-- No two hosts have the same name, and the rows are as many as the records. -/
theorem groupedTargets_counts (speed : UInt64) (records : List Fields) :
    ((groupedTargets speed records).hosts.map Queryhost.host).Nodup ∧
      ((groupedTargets speed records).hosts.map fun host => host.rows.length).sum =
        records.length := by
  rw [← oldTargets_eq]
  constructor
  · rw [oldTargets, List.map_map, List.Nodup, List.pairwise_map]
    refine (grouped_distinct records).imp fun hne heq => hne ?_
    simpa [oldHost] using heq
  · rw [← @length_grouped _ _ _ Fields.host records, oldTargets, List.map_map]
    refine congrArg List.sum (List.map_congr_left fun group _ => ?_)
    simp [oldHost]

/-! ## A reader without a current host -/

/-- The host of a row, looked up in all cases. -/
def Rtgtargets.lookUp (targets : Rtgtargets) (fields : Fields) :
    Except Fault (Rtgtargets × Nat) := do
  match ← rtgtargetsFindHost targets.hosts (some fields.host) with
  | some index => return (targets, index)
  | none =>
      let host : Queryhost :=
        { queryhostCreate with
          host := some fields.host
          community := some fields.community
          snmpver := 2 }
      return (targets.pushHost host, targets.hosts.length)

def Rtgtargets.readLine (unspecified : Unspecified) (conf : Rtgconf) (targets : Rtgtargets)
    (line : List Char) : Except Fault Rtgtargets :=
  match fieldsOf line with
  | none => .ok targets
  | some fields => do
      let found ← targets.lookUp fields
      let speed ← oldSpeed unspecified conf
      return found.1.addRow found.2 (oldRow fields speed)

/-- `read_old_style_targets` with every host looked up. -/
def readByLookup (unspecified : Unspecified) (file : File) (conf : Rtgconf) :
    Except Fault Rtgtargets :=
  match file with
  | none => .ok rtgtargetsCreate
  | some text => (recordLines text).foldlM (Rtgtargets.readLine unspecified conf) rtgtargetsCreate

section Lookup

variable {unspecified : Unspecified} {conf : Rtgconf}

/-- The current host is never another one than the lookup finds. -/
theorem OldReader.Holds.hostOf_eq {reader : OldReader} {speed : UInt64}
    {groups : List (KeyGroup Fields)} {count : Nat} (holds : reader.Holds speed groups count)
    (fields : Fields) : reader.hostOf fields = reader.targets.lookUp fields := by
  rw [Rtgtargets.lookUp, holds.find]
  cases hposition : position Fields.host groups fields.host with
  | some index => exact holds.hostOf_old hposition
  | none =>
      rw [holds.hostOf_new hposition, holds.hosts, List.length_map]
      rfl

theorem OldReader.Holds.readLine_targets {reader : OldReader} {speed : UInt64}
    {groups : List (KeyGroup Fields)} {count : Nat} (holds : reader.Holds speed groups count)
    (line : List Char) :
    reader.targets.readLine unspecified conf line =
      (reader.readLine unspecified conf line).map OldReader.targets := by
  rw [OldReader.readLine, Rtgtargets.readLine]
  cases fieldsOf line with
  | none => rfl
  | some fields =>
      simp only [holds.hostOf_eq]
      cases reader.targets.lookUp fields with
      | error fault => rfl
      | ok found =>
          cases oldSpeed unspecified conf with
          | error fault => rfl
          | ok speed => rfl

theorem OldReader.Holds.next {reader next : OldReader} {speed : UInt64}
    {groups : List (KeyGroup Fields)} {count : Nat}
    (hspeed : ∀ other, oldSpeed unspecified conf = .ok other → other = speed)
    (holds : reader.Holds speed groups count) {line : List Char}
    (hread : reader.readLine unspecified conf line = .ok next) :
    ∃ groups count, next.Holds speed groups count := by
  cases hline : fieldsOf line with
  | none =>
      rw [OldReader.readLine, hline] at hread
      cases hread
      exact ⟨groups, count, holds⟩
  | some fields =>
      have hturn := hread
      rw [OldReader.readLine, hline] at hturn
      obtain ⟨_, -, hrest⟩ := bind_eq_ok.mp hturn
      obtain ⟨other, hother, -⟩ := bind_eq_ok.mp hrest
      rw [hspeed other hother] at hother
      obtain ⟨result, hresult, hholds⟩ := holds.readLine hother hline
      rw [hread] at hresult
      cases hresult
      exact ⟨_, _, hholds⟩

theorem OldReader.Holds.readLines_targets {reader : OldReader} {speed : UInt64}
    {groups : List (KeyGroup Fields)} {count : Nat}
    (hspeed : ∀ other, oldSpeed unspecified conf = .ok other → other = speed)
    (holds : reader.Holds speed groups count) (lines : List (List Char)) :
    lines.foldlM (Rtgtargets.readLine unspecified conf) reader.targets =
      (lines.foldlM (OldReader.readLine unspecified conf) reader).map OldReader.targets := by
  induction lines generalizing reader groups count with
  | nil => rfl
  | cons line lines ih =>
      rw [List.foldlM_cons, List.foldlM_cons, holds.readLine_targets]
      cases hread : reader.readLine unspecified conf line with
      | error fault => rfl
      | ok next =>
          obtain ⟨_, _, hnext⟩ := holds.next hspeed hread
          exact ih hnext

/-- The current host saves lookups and changes nothing else. -/
theorem readByLookup_eq (file : File) :
    readByLookup unspecified file conf = readOldStyleTargets unspecified file conf := by
  cases file with
  | none => rfl
  | some text =>
      have hspeed : ∃ speed, ∀ other, oldSpeed unspecified conf = .ok other → other = speed := by
        cases oldSpeed unspecified conf with
        | error fault => exact ⟨0, fun other himpossible => by cases himpossible⟩
        | ok speed => exact ⟨speed, fun other heq => by cases heq; rfl⟩
      obtain ⟨speed, hspeed⟩ := hspeed
      rw [readByLookup, readOldStyleTargets]
      refine ((holds_nothing speed).readLines_targets hspeed (recordLines text)).trans ?_
      cases (recordLines text).foldlM (OldReader.readLine unspecified conf)
        { targets := rtgtargetsCreate, currentHost := none } <;> rfl

end Lookup

/-- The old-style reader groups the records of the lines by host; only a zero
interval keeps it from returning. -/
theorem readOldStyleTargets_groups {text : List Char} (hnul : '\x00' ∉ text)
    (hfits : ∀ line ∈ lines '\n' text, line.length < 256) (unspecified : Unspecified)
    (conf : Rtgconf) :
    (∀ targets, readOldStyleTargets unspecified (some text) conf = .ok targets →
      (∃ speed, targets = groupedTargets speed (lineRecords text)) ∧
        (targets.hosts.map Queryhost.host).Nodup ∧
        targets.ntargets = UInt32.ofNat (lineRecords text).length ∧
        (targets.hosts.map fun host => host.rows.length).sum = (lineRecords text).length) ∧
    (conf.interval ≠ 0 → ∃ targets, readOldStyleTargets unspecified (some text) conf =
      .ok targets) ∧
    readByLookup unspecified (some text) conf =
      readOldStyleTargets unspecified (some text) conf := by
  refine ⟨fun targets hread => ?_, fun hinterval => ?_, readByLookup_eq _⟩
  · obtain ⟨speed, htargets⟩ := readOldStyleTargets_ok hread
    have hrecords : fileRecords (some text) = lineRecords text := recordsOf_eq hnul hfits
    rw [hrecords, oldTargets_eq] at htargets
    subst htargets
    obtain ⟨hnames, hrows⟩ := groupedTargets_counts speed (lineRecords text)
    exact ⟨⟨speed, rfl⟩, hnames, rfl, hrows⟩
  · exact ⟨_, readOldStyleTargets_eq (if_neg hinterval) text⟩

/-- Three lines, of which the first and the last have the same host. -/
def threeLines : List Char :=
  "a\t.1\t64\tpublic\tt\t1\tfirst\nb\t.2\t64\tpublic\tt\t2\na\t\t.3\t64\tother\tt\t3\n".toList

theorem readOldStyleTargets_groups_threeLines :
    readByLookup ⟨0, fun _ => 0⟩ (some threeLines) defaultRtgconf =
      readOldStyleTargets ⟨0, fun _ => 0⟩ (some threeLines) defaultRtgconf ∧
    ∃ targets, readOldStyleTargets ⟨0, fun _ => 0⟩ (some threeLines) defaultRtgconf =
      .ok targets := by
  obtain ⟨-, hreturns, hsame⟩ := @readOldStyleTargets_groups threeLines (by decide +kernel)
    (by decide +kernel) ⟨0, fun _ => 0⟩ defaultRtgconf
  exact ⟨hsame, hreturns (by decide)⟩

end ClusteredPoller.Targets
