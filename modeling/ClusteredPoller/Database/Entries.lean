import ClusteredPoller.Database.ZeroDeltas
import ClusteredPoller.Poller.Contents
import Mathlib.Data.Multiset.Filter

/-!
# The rows that samples become

A sample that qualifies becomes a row of its table.  The query of an insert says
just the rows of the samples in it.
-/

namespace ClusteredPoller.Database

open Library.Outcome Poller

/-- A row, and the name of its table. -/
abbrev Entry := List Char × Row

/-- The row of a sample, with the currvalue that is printed. -/
def recordOf (config : Rtgconf) (sample : Push) : Option Entry :=
  match sample.1 with
  | some table =>
      if qualifies config sample.2 then some (table.chars, rowOf config (narrow sample.2))
      else none
  | none => none

def entriesOf (config : Rtgconf) (samples : Multiset Push) : Multiset Entry :=
  samples.filterMap (recordOf config)

def Statement.entries (statement : Statement) : Multiset Entry :=
  (statement.rows.map (Prod.mk statement.table) : List Entry)

/-- What a text says, read as a statement. -/
def entriesIn (text : CString) : Multiset Entry :=
  match decodeStatement text.chars with
  | some statement => statement.entries
  | none => 0

/-- Its table has no space, and its time is one that `time_t` can hold. -/
structure Printable (sample : Push) : Prop where
  table : ∀ table ∈ sample.1, ' ' ∉ table.chars
  time : ValidTime sample.2

/-! ## Bags of rows -/

theorem entriesOf_add (config : Rtgconf) (first second : Multiset Push) :
    entriesOf config (first + second) = entriesOf config first + entriesOf config second :=
  Multiset.filterMap_add _ _ _

/-! ## The query of an insert -/

section Insert

variable {insert : Clinsert} {config : Rtgconf}

theorem records_of_values (table : CString) (values : List ClinsertValue) :
    (values.map (Prod.mk (some table))).filterMap (recordOf config) =
      (rowsOf config values).map (Prod.mk table.chars) := by
  induction values with
  | nil => rfl
  | cons value values ih =>
      rw [List.map_cons]
      cases hqualifies : qualifies config value with
      | true =>
          have hrecord : recordOf config (some table, value) =
              some (table.chars, rowOf config (narrow value)) := if_pos hqualifies
          rw [List.filterMap_cons_some hrecord, ih, rowsOf, rowsOf, qualifying_cons hqualifies]
          rfl
      | false =>
          have hrecord : recordOf config (some table, value) = none :=
            if_neg (Bool.eq_false_iff.mp hqualifies)
          rw [List.filterMap_cons_none hrecord, ih, rowsOf, rowsOf, qualifying_skip hqualifies]

theorem entriesOf_samples {table : CString} (htable : insert.table = some table) :
    entriesOf config insert.samples =
      (statementOf config table (insert.values.map narrow)).entries := by
  have hstatement : (statementOf config table (insert.values.map narrow)).entries =
      ((rowsOf config insert.values).map (Prod.mk table.chars) : List Entry) := by
    rw [rowsOf_eq]
    rfl
  rw [hstatement, ← records_of_values, Clinsert.samples, htable]
  exact Multiset.filterMap_coe _ _

/-- An insert without a table has no query. -/
theorem buildInsertQuery_untabled (hnone : insert.table = none) {query : Option CString} :
    buildInsertQuery insert config ≠ .ok query := by
  intro hbuild
  obtain ⟨gs, hheader, -⟩ := bind_eq_ok.mp hbuild
  rw [hnone] at hheader
  obtain ⟨first, -, hrest⟩ := bind_eq_ok.mp hheader
  cases hrest

/-- What an insert with samples says can be printed. -/
theorem printable_insert (printable : ∀ sample ∈ insert.samples, Printable sample) :
    (∀ value ∈ insert.values, ValidTime value) ∧
      (insert.values ≠ [] → ∀ table ∈ insert.table, ' ' ∉ table.chars) := by
  have hmem : ∀ value ∈ insert.values, (insert.table, value) ∈ insert.samples := fun value hvalue =>
    Multiset.mem_coe.mpr (List.mem_map_of_mem hvalue)
  refine ⟨fun value hvalue => (printable _ (hmem value hvalue)).time, fun hvalues => ?_⟩
  obtain ⟨value, hvalue⟩ := List.exists_mem_of_ne_nil _ hvalues
  exact (printable _ (hmem value hvalue)).table

/-- The query of an insert says the rows of its samples. -/
theorem query_entries (printable : ∀ sample ∈ insert.samples, Printable sample) {query : CString}
    (hbuild : buildInsertQuery insert config = .ok (some query)) :
    (decodeStatement query.chars).isSome = true ∧
      entriesIn query = entriesOf config insert.samples := by
  obtain ⟨validTimes, hspace⟩ := printable_insert printable
  cases htable : insert.table with
  | none => exact absurd hbuild (buildInsertQuery_untabled htable)
  | some table =>
      have hsome : qualifying config insert.values ≠ [] := by
        intro hnone
        rw [buildInsertQuery_empty htable hnone validTimes] at hbuild
        cases hbuild
      have hfew : (qualifying config insert.values).length < 2 ^ 31 := by
        by_contra hmany
        rw [buildInsertQuery_overflows htable (Nat.not_lt.mp hmany) validTimes] at hbuild
        cases hbuild
      obtain ⟨text, htext, hchars⟩ := buildInsertQuery_prints htable hsome hfew validTimes
      rw [hbuild] at htext
      cases htext
      have hvalues : insert.values ≠ [] := fun hnone => hsome (by rw [hnone]; rfl)
      have hnarrow : qualifying config (insert.values.map narrow) ≠ [] := by
        rw [qualifying_narrow]
        exact fun hempty => hsome (List.map_eq_nil_iff.mp hempty)
      have hdecoded : decodeStatement query.chars =
          some (statementOf config table (insert.values.map narrow)) := by
        rw [hchars]
        exact decodeStatement_print (statementOf_wellFormed (hspace hvalues table htable) hnarrow)
      rw [entriesIn, hdecoded, entriesOf_samples htable]
      exact ⟨rfl, rfl⟩

/-- An insert that is left out has no rows. -/
theorem omitted_entries (printable : ∀ sample ∈ insert.samples, Printable sample)
    (hbuild : buildInsertQuery insert config = .ok none) :
    entriesOf config insert.samples = 0 := by
  obtain ⟨validTimes, -⟩ := printable_insert printable
  cases htable : insert.table with
  | none => exact absurd hbuild (buildInsertQuery_untabled htable)
  | some table =>
      have hnone : qualifying config insert.values = [] := by
        by_contra hsome
        rcases Nat.lt_or_ge (qualifying config insert.values).length (2 ^ 31) with hfew | hmany
        · obtain ⟨text, htext, -⟩ := buildInsertQuery_prints htable hsome hfew validTimes
          rw [hbuild] at htext
          cases htext
        · rw [buildInsertQuery_overflows htable hmany validTimes] at hbuild
          cases hbuild
      rw [entriesOf_samples htable, statementOf, qualifying_narrow, hnone]
      rfl

end Insert

end ClusteredPoller.Database
