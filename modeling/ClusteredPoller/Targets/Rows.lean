import ClusteredPoller.Targets.NewStyle

/-!
# Rows that repeat others

For rows that have an OID and a table, the duplicate check of `read_host` is a
plain test on the rows read so far.
-/

namespace ClusteredPoller.Targets

open Poller
open Library.Outcome (ok_bind)

/-- Both strings of the row are there. -/
def Named (row : Queryrow) : Prop := row.oid.isSome ∧ row.table.isSome

/-- The second row has the OID or the table and number of the first. -/
def repeats (earlier row : Queryrow) : Bool :=
  earlier.oid = row.oid || (earlier.table = row.table && earlier.id == row.id)

/-- Push a row unless it repeats one. -/
def addRow (host : Queryhost) (row : Queryrow) : Queryhost :=
  if host.rows.any fun earlier => repeats earlier row then host else pushRow host row

theorem checkForDuplicate_named {rows : List Queryrow} {row : Queryrow}
    (hrows : ∀ earlier ∈ rows, Named earlier) (hrow : Named row) :
    checkForDuplicate rows row = .ok (rows.any fun earlier => repeats earlier row) := by
  induction rows with
  | nil => rfl
  | cons earlier rows ih =>
      have hearlier := hrows earlier List.mem_cons_self
      have hrest := ih fun other hother => hrows other (List.mem_cons_of_mem _ hother)
      rw [checkForDuplicate, strcmpEqual_some hearlier.1 hrow.1,
        strcmpEqual_some hearlier.2 hrow.2, hrest, List.any_cons, repeats]
      by_cases hoid : earlier.oid = row.oid
      · simp [hoid]
        rfl
      · by_cases htable : earlier.table = row.table <;> by_cases hid : earlier.id = row.id <;>
          simp [hoid, htable, hid]

theorem addTarget_named {host : Queryhost} {row : Queryrow}
    (hrows : ∀ earlier ∈ host.rows, Named earlier) (hrow : Named row) :
    addTarget host row = .ok (addRow host row) := by
  rw [addTarget, checkForDuplicate_named hrows hrow, ok_bind, addRow]
  split <;> rfl

theorem mem_addRow {host : Queryhost} {row other : Queryrow}
    (hmem : other ∈ (addRow host row).rows) : other ∈ host.rows ∨ other = row := by
  unfold addRow at hmem
  split at hmem
  · exact Or.inl hmem
  · simpa [pushRow] using hmem

theorem named_addRow {host : Queryhost} {row : Queryrow}
    (hrows : ∀ earlier ∈ host.rows, Named earlier) (hrow : Named row) :
    ∀ earlier ∈ (addRow host row).rows, Named earlier := by
  intro earlier hmem
  rcases mem_addRow hmem with hmem | rfl
  · exact hrows earlier hmem
  · exact hrow

@[simp]
theorem addRow_host (host : Queryhost) (row : Queryrow) : (addRow host row).host = host.host := by
  unfold addRow
  split <;> rfl

@[simp]
theorem addRow_community (host : Queryhost) (row : Queryrow) :
    (addRow host row).community = host.community := by
  unfold addRow
  split <;> rfl

/-- Rows of which none repeats an earlier one are all pushed. -/
theorem foldl_addRow {host : Queryhost} {rows : List Queryrow}
    (hdistinct : (host.rows ++ rows).Pairwise fun earlier row => repeats earlier row = false) :
    rows.foldl addRow host = { host with rows := host.rows ++ rows } := by
  induction rows generalizing host with
  | nil => simp
  | cons row rows ih =>
      have hfresh : host.rows.any (fun earlier => repeats earlier row) = false := by
        rw [List.pairwise_append] at hdistinct
        simpa using fun earlier hmem => hdistinct.2.2 earlier hmem row List.mem_cons_self
      have hpush : addRow host row = pushRow host row := by simp [addRow, hfresh]
      rw [List.foldl_cons, hpush, ih]
      · simp [pushRow]
      · simpa [pushRow] using hdistinct

theorem length_addRow_le (host : Queryhost) (row : Queryrow) :
    (addRow host row).rows.length ≤ host.rows.length + 1 := by
  unfold addRow
  split <;> simp [pushRow]

theorem length_foldl_addRow_le (rows : List Queryrow) (host : Queryhost) :
    (rows.foldl addRow host).rows.length ≤ host.rows.length + rows.length := by
  induction rows generalizing host with
  | nil => simp
  | cons row rows ih =>
      have hrest := ih (addRow host row)
      have hrow := length_addRow_le host row
      simp only [List.foldl_cons, List.length_cons]
      omega

/-- If all rows are pushed, then none repeats an earlier one. -/
theorem pairwise_of_foldl_addRow {host : Queryhost} {rows : List Queryrow}
    (hhost : host.rows.Pairwise fun earlier row => repeats earlier row = false)
    (hall : (rows.foldl addRow host).rows.length = host.rows.length + rows.length) :
    (host.rows ++ rows).Pairwise fun earlier row => repeats earlier row = false := by
  induction rows generalizing host with
  | nil => simpa using hhost
  | cons row rows ih =>
      have hle := length_foldl_addRow_le rows (addRow host row)
      simp only [List.foldl_cons, List.length_cons] at hall
      by_cases hrepeats : host.rows.any (fun earlier => repeats earlier row) = true
      · have hdropped : addRow host row = host := by simp [addRow, hrepeats]
        rw [hdropped] at hle hall
        omega
      · have hpushed : addRow host row = pushRow host row := by simp [addRow, hrepeats]
        have hnew : ∀ earlier ∈ host.rows, repeats earlier row = false := by
          simpa using hrepeats
        have hrows : (pushRow host row).rows = host.rows ++ [row] := rfl
        rw [hpushed] at hall
        have hpairwise : (pushRow host row).rows.Pairwise
            fun earlier row => repeats earlier row = false := by
          rw [hrows, List.pairwise_append]
          refine ⟨hhost, List.pairwise_singleton _ _, fun earlier hearlier other hother => ?_⟩
          rw [List.mem_singleton.mp hother]
          exact hnew earlier hearlier
        have hrest := ih hpairwise (by rw [hrows, List.length_append] at *; simp_all; omega)
        simpa [hrows] using hrest

end ClusteredPoller.Targets
