import ClusteredPoller.Library.Greedy
import ClusteredPoller.Targets.Pollable

/-!
# Duplicate targets

`read_host` compares a target with the rows it has kept.  A target that was
dropped drops no other, so the kept rows are those that clash with no kept row
in front of them.
-/

namespace ClusteredPoller.Targets

open Poller
open Library.Greedy (keepUnless sift marked MarksGreedily sift_greedy sift_pairwise)
open Library.Outcome (bind_eq_ok bind_eq_error)

/-- The targets of a block: their OIDs and directives. -/
def targetsOf (items : List HostItem) : List (Option CString × List RowDirective) :=
  items.filterMap fun item =>
    match item with
    | .target text directives => some (text, directives)
    | _ => none

/-- The row that `read_row` makes of a target. -/
def RowOf (conf : Rtgconf) (target : Option CString × List RowDirective) (row : Queryrow) : Prop :=
  ∃ oid, target.1 = some oid ∧ evalRow conf oid target.2 = .ok row

section Rows

variable {conf : Rtgconf} {host final : Queryhost}

theorem addRow_rows (host : Queryhost) (row : Queryrow) :
    (addRow host row).rows = keepUnless repeats host.rows row := by
  rw [addRow, keepUnless]
  split <;> rfl

/-- A check that returns has compared the row with all rows up to one that it
repeats. -/
theorem checkForDuplicate_ok {rows : List Queryrow} {row : Queryrow} {duplicate : Bool}
    (hcheck : checkForDuplicate rows row = .ok duplicate) :
    duplicate = rows.any fun earlier => repeats earlier row := by
  induction rows with
  | nil =>
      cases hcheck
      rfl
  | cons earlier rows ih =>
      rw [checkForDuplicate] at hcheck
      obtain ⟨sameOid, hoid, hcheck⟩ := bind_eq_ok.mp hcheck
      have hoid := strcmpEqual_ok hoid
      rw [List.any_cons, repeats]
      cases sameOid with
      | true =>
          cases hcheck
          rw [← hoid, Bool.true_or, Bool.true_or]
      | false =>
          obtain ⟨sameTable, htable, hcheck⟩ := bind_eq_ok.mp hcheck
          rw [← hoid, ← strcmpEqual_ok htable, Bool.false_or]
          cases hboth : sameTable && earlier.id == row.id with
          | true =>
              rw [hboth] at hcheck
              cases hcheck
              rfl
          | false =>
              rw [hboth] at hcheck
              rw [Bool.false_or]
              exact ih hcheck

theorem addTarget_ok {next : Queryhost} {row : Queryrow} (hadd : addTarget host row = .ok next) :
    next = addRow host row := by
  obtain ⟨duplicate, hcheck, hnext⟩ := bind_eq_ok.mp hadd
  rw [addRow, ← checkForDuplicate_ok hcheck]
  cases duplicate with
  | true =>
      cases hnext
      rfl
  | false =>
      cases hnext
      rfl

/-- The loop over the items sifts the rows of its targets. -/
theorem items_sift {items : List HostItem}
    (hrun : items.foldlM (HostItem.apply conf) host = .ok final) :
    ∃ rows, List.Forall₂ (RowOf conf) (targetsOf items) rows ∧
      final.rows = rows.foldl (keepUnless repeats) host.rows := by
  induction items generalizing host with
  | nil =>
      cases hrun
      exact ⟨[], List.Forall₂.nil, rfl⟩
  | cons item items ih =>
      rw [List.foldlM_cons] at hrun
      obtain ⟨next, hnext, hrest⟩ := bind_eq_ok.mp hrun
      obtain ⟨rows, hall, hfinal⟩ := ih hrest
      cases HostItem.applied hnext with
      | community text => exact ⟨rows, hall, hfinal⟩
      | snmpver value => exact ⟨rows, hall, hfinal⟩
      | @target oid directives row _ hrow hadd =>
          refine ⟨row :: rows, List.Forall₂.cons ⟨oid, rfl, hrow⟩ hall, ?_⟩
          rw [hfinal, addTarget_ok hadd, addRow_rows, List.foldl_cons]

/-- Rows of which none repeats an earlier one have distinct OIDs, and distinct
tables and numbers together. -/
theorem nodup_of_pairwise {rows : List Queryrow}
    (hpairwise : rows.Pairwise fun earlier row => repeats earlier row = false) :
    (rows.map Queryrow.oid).Nodup ∧ (rows.map fun row => (row.table, row.id)).Nodup := by
  constructor
  · rw [List.Nodup, List.pairwise_map]
    refine hpairwise.imp fun {earlier row} hnot heq => ?_
    simp [repeats, heq] at hnot
  · rw [List.Nodup, List.pairwise_map]
    refine hpairwise.imp fun {earlier row} hnot heq => ?_
    obtain ⟨htable, hid⟩ := Prod.mk.inj heq
    simp [repeats, htable, hid] at hnot

end Rows

/-- What a file counts are the rows it keeps. -/
theorem evalBlocks_ntargets {conf : Rtgconf} {targets final : Rtgtargets}
    {blocks : List HostBlock} (heval : evalBlocks conf targets blocks = .ok final)
    (hcounted : targets.ntargets =
      UInt32.ofNat (targets.hosts.map fun host => host.rows.length).sum) :
    final.ntargets = UInt32.ofNat (final.hosts.map fun host => host.rows.length).sum := by
  induction blocks generalizing targets with
  | nil =>
      cases heval
      exact hcounted
  | cons block blocks ih =>
      rw [evalBlocks, List.foldlM_cons, bind_assoc] at heval
      obtain ⟨host, -, hrest⟩ := bind_eq_ok.mp heval
      apply ih hrest
      simp [Rtgtargets.pushHost, hcounted, UInt32.ofNat_add]

/-- A block keeps the rows that repeat no kept row in front of them, and only
these are counted.  It is read, unless it breaks off or its interval is zero. -/
theorem duplicates_suppressed (unspecified : Unspecified) (conf : Rtgconf) (name : CString)
    (stream : List Char) :
    (∀ host rest, readHost unspecified conf name stream = .ok (host, rest) →
      (∃ rows marks, List.Forall₂ (RowOf conf) (targetsOf (hostItems unspecified stream).1) rows ∧
        MarksGreedily repeats marks rows ∧ host.rows = marked marks rows) ∧
      (host.rows.map Queryrow.oid).Nodup ∧
      (host.rows.map fun row => (row.table, row.id)).Nodup) ∧
    (completeItems none (hostItems unspecified stream).1 = true → conf.interval ≠ 0 →
      ∃ host rest, readHost unspecified conf name stream = .ok (host, rest)) ∧
    ∀ file targets, readNewStyleTargets unspecified file conf = .ok targets →
      targets.ntargets = UInt32.ofNat (targets.hosts.map fun host => host.rows.length).sum := by
  refine ⟨fun host rest hread => ?_, fun hwhole hinterval => ?_, fun file targets hread => ?_⟩
  · rw [readHost_eq] at hread
    obtain ⟨final, heval, hresult⟩ := bind_eq_ok.mp hread
    cases hresult
    obtain ⟨rows, hall, hrows⟩ := items_sift heval
    obtain ⟨marks, hmarks, hsift⟩ := @sift_greedy _ repeats rows
    have hkept : host.rows = sift repeats rows := hrows
    refine ⟨⟨rows, marks, hall, hmarks, hkept.trans hsift⟩, nodup_of_pairwise ?_⟩
    rw [hkept]
    exact sift_pairwise rows
  · cases hread : readHost unspecified conf name stream with
    | ok read => exact ⟨read.1, read.2, rfl⟩
    | error fault =>
        have hyields := @completeItems_yields conf _ { queryhostCreate with host := some name }
          (by simp [queryhostCreate]) hwhole
        have hdivides : fault = .divisionByZero := by
          rw [readHost_eq] at hread
          rcases bind_eq_error.mp hread with heval | ⟨final, -, hresult⟩
          · exact hyields.fails fault heval
          · cases hresult
        rcases hostLoop_fails _ stream fault hread with rfl | rfl | ⟨-, hzero⟩
        · cases hdivides
        · cases hdivides
        · exact absurd hzero hinterval
  · rw [readNewStyleTargets_blocks] at hread
    exact evalBlocks_ntargets hread rfl

def blockName : CString := CString.ofMemory ['a']

/-- The second target has the table and number of the first, and the third the
OID of the second. -/
def chainedBlock : List Char :=
  ("\x7b target .1 \x7b table t; id 1; \x7d; target .2 \x7b table t; id 1; \x7d;" ++
    " target .2 \x7b table t; id 2; \x7d; \x7d;").toList

/-- The dropped one does not drop the third. -/
theorem duplicates_suppressed_chained :
    ∃ host rest, readHost ⟨0, fun _ => 0⟩ defaultRtgconf blockName chainedBlock =
        .ok (host, rest) ∧ (host.rows.map Queryrow.oid).Nodup := by
  obtain ⟨hkeeps, hreads, -⟩ :=
    duplicates_suppressed ⟨0, fun _ => 0⟩ defaultRtgconf blockName chainedBlock
  obtain ⟨host, rest, hread⟩ := hreads (by decide +kernel) (by decide)
  exact ⟨host, rest, hread, (hkeeps host rest hread).2.1⟩

end ClusteredPoller.Targets
