import ClusteredPoller.Library.Grouping
import ClusteredPoller.Targets.OldStyle
import ClusteredPoller.Targets.Rows

/-!
# The records of an old-style targets file

Each line with at least six fields is a record.  Reading a file is grouping its
records by host.
-/

namespace ClusteredPoller.Targets

open Poller
open Library.Grouping (KeyGroup position place grouped Distinct place_distinct foldl_place_nil
  map_modify modify_append_cons)
open Library.Outcome (ok_bind bind_eq_ok)

/-! ## Searching -/

/-- The search that both functions make: the first item with a string. -/
def findString {Item : Type} (string : Item → Option CString) (wanted : Option CString) :
    List Item → Except Fault (Option Nat)
  | [] => .ok none
  | item :: items => do
      if ← strcmpEqual wanted (string item) then
        return some 0
      else
        let found ← findString string wanted items
        return found.map (· + 1)

theorem rtgtargetsFindHost_eq (hosts : List Queryhost) (name : Option CString) :
    rtgtargetsFindHost hosts name = findString Queryhost.host name hosts := by
  induction hosts with
  | nil => rfl
  | cons host hosts ih => rw [rtgtargetsFindHost, findString, ih]

theorem rtgtargetsFindRow_eq (rows : List Queryrow) (oid : Option CString) :
    rtgtargetsFindRow rows oid = findString Queryrow.oid oid rows := by
  induction rows with
  | nil => rfl
  | cons row rows ih => rw [rtgtargetsFindRow, findString, ih]

section FindString

variable {Item : Type} {string : Item → Option CString} {wanted : Option CString}
  {items : List Item}

/-- Where the strings are there, it is a plain search in a list. -/
theorem findString_named (hwanted : wanted.isSome) (hitems : ∀ item ∈ items, (string item).isSome) :
    findString string wanted items =
      .ok (items.findIdx? fun item => decide (wanted = string item)) := by
  induction items with
  | nil => rfl
  | cons item items ih =>
      have hrest := ih fun other hother => hitems other (List.mem_cons_of_mem _ hother)
      rw [findString, strcmpEqual_some hwanted (hitems item List.mem_cons_self), hrest,
        List.findIdx?_cons]
      by_cases heq : wanted = string item
      · simp [heq]
        rfl
      · simp [heq]

/-- And so it is if it returns. -/
theorem findString_ok {found : Option Nat} (hfind : findString string wanted items = .ok found) :
    found = items.findIdx? fun item => decide (wanted = string item) := by
  induction items generalizing found with
  | nil =>
      cases hfind
      rfl
  | cons item items ih =>
      obtain ⟨equal, hequal, hrest⟩ := bind_eq_ok.mp hfind
      rw [List.findIdx?_cons, ← strcmpEqual_ok hequal]
      cases equal with
      | true =>
          cases hrest
          rfl
      | false =>
          obtain ⟨later, hlater, hresult⟩ := bind_eq_ok.mp hrest
          cases hresult
          rw [ih hlater]
          rfl

end FindString

theorem rtgtargetsFindHost_named {hosts : List Queryhost} {name : Option CString}
    (hname : name.isSome) (hhosts : ∀ host ∈ hosts, host.host.isSome) :
    rtgtargetsFindHost hosts name =
      .ok (hosts.findIdx? fun host => decide (name = host.host)) := by
  rw [rtgtargetsFindHost_eq]
  exact findString_named hname hhosts

theorem rtgtargetsFindRow_named {rows : List Queryrow} {oid : Option CString}
    (hoid : oid.isSome) (hrows : ∀ row ∈ rows, row.oid.isSome) :
    rtgtargetsFindRow rows oid = .ok (rows.findIdx? fun row => decide (oid = row.oid)) := by
  rw [rtgtargetsFindRow_eq]
  exact findString_named hoid hrows

/-! ## Reading -/

/-- The records of a file. -/
def recordsOf (text : List Char) : List Fields :=
  (recordLines text).filterMap fieldsOf

/-- The host of a group of records: its community is that of the first one. -/
def oldHost (speed : UInt64) (group : KeyGroup Fields) : Queryhost where
  host := some group.first.host
  community := some group.first.community
  snmpver := 2
  rows := group.items.map fun fields => oldRow fields speed

def oldTargets (speed : UInt64) (records : List Fields) : Rtgtargets where
  hosts := (grouped Fields.host records).map (oldHost speed)
  ntargets := UInt32.ofNat records.length

/-- The reader has read so many records, and has the hosts of their groups. -/
structure OldReader.Holds (reader : OldReader) (speed : UInt64) (groups : List (KeyGroup Fields))
    (count : Nat) : Prop where
  distinct : Distinct Fields.host groups
  hosts : reader.targets.hosts = groups.map (oldHost speed)
  ntargets : reader.targets.ntargets = UInt32.ofNat count
  current : ∀ index, reader.currentHost = some index → index < groups.length

theorem oldHost_append (speed : UInt64) (fields : Fields) (group : KeyGroup Fields) :
    oldHost speed (group.append [fields]) =
      pushRow (oldHost speed group) (oldRow fields speed) := by
  simp [oldHost, pushRow, KeyGroup.append, KeyGroup.items]

section Reader

variable {reader : OldReader} {speed : UInt64} {groups : List (KeyGroup Fields)} {count : Nat}
  {fields : Fields}

namespace OldReader.Holds

theorem find (holds : reader.Holds speed groups count) (name : CString) :
    rtgtargetsFindHost reader.targets.hosts (some name) =
      .ok (position Fields.host groups name) := by
  have hnamed : ∀ host ∈ reader.targets.hosts, host.host.isSome := by
    rw [holds.hosts]
    intro host hhost
    obtain ⟨group, -, rfl⟩ := List.mem_map.mp hhost
    rfl
  rw [rtgtargetsFindHost_named rfl hnamed, holds.hosts, List.findIdx?_map]
  refine congrArg Except.ok (congrArg (fun test => List.findIdx? test groups) ?_)
  funext group
  simp [oldHost, eq_comm]

/-- The current host, if it has the name, is the one with the name. -/
theorem sameHost (holds : reader.Holds speed groups count) (name : CString) :
    reader.sameHost name = .ok none ∨
      ∃ index, reader.sameHost name = .ok (some index) ∧
        position Fields.host groups name = some index := by
  unfold OldReader.sameHost
  cases hcurrent : reader.currentHost with
  | none => exact Or.inl rfl
  | some index =>
      have hindex := holds.current index hcurrent
      have hget : (reader.targets.hosts[index]?).bind Queryhost.host =
          some groups[index].first.host := by
        simp [holds.hosts, List.getElem?_map, List.getElem?_eq_getElem hindex, oldHost]
      simp only [hget, strcmpEqual]
      by_cases heq : groups[index].first.host = name
      · right
        refine ⟨index, by simp [heq]; rfl, ?_⟩
        refine List.findIdx?_eq_some_iff_getElem.mpr ⟨hindex, by simpa using heq, ?_⟩
        intro earlier hearlier
        have hne := List.pairwise_iff_getElem.mp holds.distinct earlier index
          (Nat.lt_trans hearlier hindex) hindex hearlier
        simpa [heq] using hne
      · left
        simp [heq]
        rfl

theorem hostOf_old (holds : reader.Holds speed groups count) {found : Nat}
    (hposition : position Fields.host groups fields.host = some found) :
    reader.hostOf fields = .ok (reader.targets, found) := by
  rw [OldReader.hostOf]
  rcases holds.sameHost fields.host with hsame | ⟨index, hsame, hindex⟩
  · simp only [hsame, holds.find, hposition, ok_bind]
    rfl
  · obtain rfl : found = index := by simpa [hposition] using hindex
    simp only [hsame, ok_bind]
    rfl

theorem hostOf_new (holds : reader.Holds speed groups count)
    (hposition : position Fields.host groups fields.host = none) :
    reader.hostOf fields =
      .ok (reader.targets.pushHost
        { queryhostCreate with
          host := some fields.host
          community := some fields.community
          snmpver := 2 }, groups.length) := by
  have hsame : reader.sameHost fields.host = .ok none := by
    rcases holds.sameHost fields.host with hsame | ⟨index, -, hindex⟩
    · exact hsame
    · rw [hposition] at hindex
      cases hindex
  simp only [OldReader.hostOf, hsame, holds.find, hposition, ok_bind]
  rw [holds.hosts, List.length_map]
  rfl

/-- A record goes to the group of its host. -/
theorem readLine {unspecified : Unspecified} {conf : Rtgconf} {line : List Char}
    (holds : reader.Holds speed groups count) (hspeed : oldSpeed unspecified conf = .ok speed)
    (hline : fieldsOf line = some fields) :
    ∃ next, reader.readLine unspecified conf line = .ok next ∧
      next.Holds speed (place Fields.host groups fields) (count + 1) := by
  have hdistinct := place_distinct holds.distinct fields
  have hcount : UInt32.ofNat count + 1 = UInt32.ofNat (count + 1) := by
    simp [UInt32.ofNat_add]
  rw [OldReader.readLine, hline, hspeed]
  cases hposition : position Fields.host groups fields.host with
  | none =>
      have hplace : place Fields.host groups fields = groups ++ [⟨fields, []⟩] := by
        rw [place, hposition]
      simp only [holds.hostOf_new hposition, ok_bind]
      refine ⟨_, rfl, ?_⟩
      rw [hplace] at hdistinct ⊢
      constructor
      · exact hdistinct
      · have hmodify := modify_append_cons (groups.map (oldHost speed))
          { queryhostCreate with
            host := some fields.host
            community := some fields.community
            snmpver := 2 } [] fun host => pushRow host (oldRow fields speed)
        rw [List.length_map] at hmodify
        simp only [Rtgtargets.addRow, Rtgtargets.pushHost, holds.hosts, hmodify]
        simp [oldHost, KeyGroup.items, pushRow, queryhostCreate]
      · rw [← hcount, ← holds.ntargets]
        simp [Rtgtargets.addRow, Rtgtargets.pushHost, queryhostCreate]
      · simp
  | some found =>
      have hplace : place Fields.host groups fields =
          groups.modify found fun group => group.append [fields] := by
        rw [place, hposition]
      have hfound := (List.findIdx?_eq_some_iff_getElem.mp hposition).1
      simp only [holds.hostOf_old hposition, ok_bind]
      refine ⟨_, rfl, ?_⟩
      rw [hplace] at hdistinct ⊢
      constructor
      · exact hdistinct
      · simp only [Rtgtargets.addRow, holds.hosts]
        exact (map_modify (oldHost_append speed fields) groups found).symm
      · rw [← hcount, ← holds.ntargets]
        rfl
      · simpa using hfound

/-- Lines that are no records change nothing; the others go to their groups. -/
theorem readLines {unspecified : Unspecified} {conf : Rtgconf}
    (hspeed : oldSpeed unspecified conf = .ok speed) (lines : List (List Char))
    (holds : reader.Holds speed groups count) :
    ∃ final, lines.foldlM (OldReader.readLine unspecified conf) reader = .ok final ∧
      final.Holds speed ((lines.filterMap fieldsOf).foldl (place Fields.host) groups)
        (count + (lines.filterMap fieldsOf).length) := by
  induction lines generalizing reader groups count with
  | nil => exact ⟨reader, rfl, holds⟩
  | cons line lines ih =>
      cases hline : fieldsOf line with
      | none =>
          have hread : reader.readLine unspecified conf line = .ok reader := by
            rw [OldReader.readLine, hline]
          rw [List.foldlM_cons, hread, ok_bind, List.filterMap_cons_none hline]
          exact ih holds
      | some fields =>
          obtain ⟨next, hread, hnext⟩ := holds.readLine hspeed hline
          obtain ⟨final, hfinal, hholds⟩ := ih hnext
          rw [List.foldlM_cons, hread, ok_bind, List.filterMap_cons_some hline]
          refine ⟨final, hfinal, ?_⟩
          rw [List.foldl_cons, List.length_cons, Nat.add_comm _ 1, ← Nat.add_assoc]
          exact hholds

end OldReader.Holds

end Reader

theorem holds_nothing (speed : UInt64) :
    OldReader.Holds { targets := rtgtargetsCreate, currentHost := none } speed [] 0 := by
  constructor
  · exact List.Pairwise.nil
  · rfl
  · rfl
  · simp

/-- `read_old_style_targets` groups the records of the file by host. -/
theorem readOldStyleTargets_eq {unspecified : Unspecified} {conf : Rtgconf} {speed : UInt64}
    (hspeed : oldSpeed unspecified conf = .ok speed) (text : List Char) :
    readOldStyleTargets unspecified (some text) conf =
      .ok (oldTargets speed (recordsOf text)) := by
  obtain ⟨final, hread, hfinal⟩ :=
    (holds_nothing speed).readLines hspeed (recordLines text)
  rw [readOldStyleTargets, hread, ok_bind]
  have hhosts := hfinal.hosts
  have hcount := hfinal.ntargets
  rw [foldl_place_nil] at hhosts
  rw [Nat.zero_add] at hcount
  refine congrArg Except.ok ?_
  cases htargets : final.targets
  simp_all [oldTargets, recordsOf]

/-- A file without records needs no speed. -/
theorem readOldStyleTargets_nothing {unspecified : Unspecified} {conf : Rtgconf}
    {text : List Char} (hrecords : recordsOf text = []) :
    readOldStyleTargets unspecified (some text) conf = .ok rtgtargetsCreate := by
  have hread : ∀ lines : List (List Char), lines.filterMap fieldsOf = [] →
      ∀ reader : OldReader, lines.foldlM (OldReader.readLine unspecified conf) reader =
        .ok reader := by
    intro lines
    induction lines with
    | nil => exact fun _ reader => rfl
    | cons line lines ih =>
        intro hlines reader
        rw [List.filterMap_eq_nil_iff] at hlines
        have hline := hlines line List.mem_cons_self
        rw [List.foldlM_cons, OldReader.readLine, hline, ok_bind]
        exact ih (List.filterMap_eq_nil_iff.mpr fun other hother =>
          hlines other (List.mem_cons_of_mem _ hother)) reader
  rw [readOldStyleTargets, hread _ hrecords]
  rfl

/-- The speed of the first record is divided by the interval. -/
theorem readOldStyleTargets_divides {unspecified : Unspecified} {conf : Rtgconf}
    {text : List Char} (hinterval : conf.interval = 0) (hrecords : recordsOf text ≠ []) :
    readOldStyleTargets unspecified (some text) conf = .error .divisionByZero := by
  have hread : ∀ lines : List (List Char), lines.filterMap fieldsOf ≠ [] →
      lines.foldlM (OldReader.readLine unspecified conf)
        { targets := rtgtargetsCreate, currentHost := none } = .error .divisionByZero := by
    intro lines
    induction lines with
    | nil => exact fun hne => absurd rfl hne
    | cons line lines ih =>
        intro hne
        rw [List.foldlM_cons, OldReader.readLine]
        cases hline : fieldsOf line with
        | none =>
            rw [List.filterMap_cons_none hline] at hne
            exact ih hne
        | some fields =>
            have hhost : OldReader.hostOf { targets := rtgtargetsCreate, currentHost := none }
                fields = _ := (holds_nothing 0).hostOf_new rfl
            simp only [hhost, ok_bind, oldSpeed, hinterval, if_true]
            rfl
  rw [readOldStyleTargets, hread _ hrecords]
  rfl

end ClusteredPoller.Targets
