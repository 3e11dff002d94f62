import ClusteredPoller.Database.QueryText
import ClusteredPoller.Poller.Clustering

/-!
# Which deltas are left out

Without the option for zero deltas `build_insert_query` leaves out the values
whose rate is zero.  The rate of a counter is its delta divided by the time and
cut to 32 bits, so deltas other than zero are left out as well.
-/

namespace ClusteredPoller.Database

open Library Library.Outcome Poller

/-! ## The row of one value -/

/-- The rows of the qualifying values, as they are printed. -/
def rowsOf (config : Rtgconf) (values : List ClinsertValue) : List Row :=
  (qualifying config values).map fun value => rowOf config (narrow value)

/-- The query of the insert has a row for the value that stands at this place:
it is the statement with the rows of the values before it, a row for it, and the
rows of the values behind it. -/
def HasRow (config : Rtgconf) (insert : Clinsert) (before : List ClinsertValue)
    (value : ClinsertValue) (after : List ClinsertValue) : Prop :=
  ∃ table text, insert.table = some table ∧ buildInsertQuery insert config = .ok (some text) ∧
    text.chars = statementFormat.print
      { table := table.chars
        rateColumn := config.useRateColumn
        currvalueColumn := config.useCurrvalueColumn
        rows := rowsOf config before ++ rowOf config (narrow value) :: rowsOf config after }

theorem rowsOf_eq (config : Rtgconf) (values : List ClinsertValue) :
    rowsOf config values = (qualifying config (values.map narrow)).map (rowOf config) := by
  rw [rowsOf, qualifying_narrow, List.map_map]
  rfl

theorem rowsOf_append (config : Rtgconf) (first second : List ClinsertValue) :
    rowsOf config (first ++ second) = rowsOf config first ++ rowsOf config second := by
  rw [rowsOf, qualifying, List.filter_append, List.map_append]
  rfl

/-- Statements with the same table and columns say the same if they print the
same, whatever the table is. -/
theorem rows_of_print_eq {config : Rtgconf} {table : CString} {rows others : List Row}
    (hrows : rows ≠ [] ∧ ∀ row ∈ rows, row.rate.isSome = config.useRateColumn ∧
      row.currvalue.isSome = config.useCurrvalueColumn)
    (hothers : others ≠ [] ∧ ∀ row ∈ others, row.rate.isSome = config.useRateColumn ∧
      row.currvalue.isSome = config.useCurrvalueColumn)
    (heq : statementFormat.print
        ⟨table.chars, config.useRateColumn, config.useCurrvalueColumn, rows⟩ =
      statementFormat.print
        ⟨table.chars, config.useRateColumn, config.useCurrvalueColumn, others⟩) :
    rows = others := by
  have hprint : ∀ rows : List Row, statementFormat.print
      ⟨table.chars, config.useRateColumn, config.useCurrvalueColumn, rows⟩ =
      "INSERT INTO ".toList ++ (table.chars ++ (" (id, dtime, counter".toList ++
        ((Format.flag ", rate".toList).print config.useRateColumn ++
          ((Format.flag ", currvalue".toList).print config.useCurrvalueColumn ++
            (rowList config.useRateColumn config.useCurrvalueColumn).print rows)))) :=
    fun _ => rfl
  have hvalid : ∀ rows : List Row, (rows ≠ [] ∧ ∀ row ∈ rows,
      row.rate.isSome = config.useRateColumn ∧ row.currvalue.isSome = config.useCurrvalueColumn) →
      (rowList config.useRateColumn config.useCurrvalueColumn).Valid rows := by
    intro rows hrows
    exact ⟨hrows.1, fun row hrow => series_valid (hrows.2 row hrow).1 (hrows.2 row hrow).2⟩
  rw [hprint, hprint] at heq
  simp only [List.append_cancel_left_eq] at heq
  exact Format.print_inj _ (hvalid rows hrows) (hvalid others hothers)
    ⟨series_follow _ _ _, rfl⟩ heq

theorem rowsOf_fields (config : Rtgconf) (values : List ClinsertValue) :
    ∀ row ∈ rowsOf config values, row.rate.isSome = config.useRateColumn ∧
      row.currvalue.isSome = config.useCurrvalueColumn := by
  intro row hrow
  obtain ⟨value, _, rfl⟩ := List.mem_map.mp hrow
  exact rowOf_fields config (narrow value)

/-- The rows of all qualifying values are these rows exactly if the value in the
middle qualifies. -/
theorem rowsOf_middle_iff (config : Rtgconf) (before after : List ClinsertValue)
    (value : ClinsertValue) :
    rowsOf config (before ++ value :: after) =
        rowsOf config before ++ rowOf config (narrow value) :: rowsOf config after ↔
      qualifies config value = true := by
  rw [rowsOf_append, List.append_cancel_left_eq]
  cases hqualifies : qualifies config value with
  | true =>
      rw [rowsOf, qualifying_cons hqualifies]
      exact iff_of_true rfl rfl
  | false =>
      refine iff_of_false (fun heq => ?_) Bool.false_ne_true
      have hlength := congrArg List.length heq
      rw [rowsOf, qualifying_skip hqualifies, List.length_cons] at hlength
      exact absurd hlength (Nat.ne_of_lt (Nat.lt_succ_self _))

section Insert

variable {config : Rtgconf} {insert : Clinsert} {before after : List ClinsertValue}
  {value : ClinsertValue}

/-- A query that was built is the statement with the rows of all qualifying
values. -/
theorem hasRow_of_built {table : CString} (htable : insert.table = some table)
    (hvalues : insert.values = before ++ value :: after)
    (hsome : qualifying config insert.values ≠ [])
    (hfew : (qualifying config insert.values).length < 2 ^ 31)
    (validTimes : ∀ value ∈ insert.values, ValidTime value) :
    HasRow config insert before value after ↔ qualifies config value = true := by
  obtain ⟨query, hquery, hchars⟩ := buildInsertQuery_prints htable hsome hfew validTimes
  rw [statementOf, ← rowsOf_eq] at hchars
  have hrows : rowsOf config insert.values ≠ [] := fun hempty =>
    hsome (List.map_eq_nil_iff.mp hempty)
  rw [hvalues] at hchars hrows
  rw [← rowsOf_middle_iff config before after value]
  constructor
  · rintro ⟨other, text, hother, htext, hprints⟩
    rw [htable] at hother
    cases hother
    rw [hquery] at htext
    cases htext
    rw [hchars] at hprints
    refine rows_of_print_eq ⟨hrows, rowsOf_fields _ _⟩ ⟨by simp, ?_⟩ hprints
    intro row hrow
    rcases List.mem_append.mp hrow with hbefore | hothers
    · exact rowsOf_fields config before row hbefore
    · rcases List.mem_cons.mp hothers with rfl | hafter
      · exact rowOf_fields config (narrow value)
      · exact rowsOf_fields config after row hafter
  · intro hmiddle
    rw [hmiddle] at hchars
    exact ⟨table, query, htable, hquery, hchars⟩

/-- A value has its row exactly if the insert has a table, the value qualifies,
and an `int` can count the rows. -/
theorem hasRow_iff (hvalues : insert.values = before ++ value :: after)
    (validTimes : ∀ value ∈ insert.values, ValidTime value) :
    HasRow config insert before value after ↔
      insert.table.isSome ∧ qualifies config value = true ∧
        (qualifying config insert.values).length < 2 ^ 31 := by
  cases htable : insert.table with
  | none =>
      refine iff_of_false ?_ (fun all => Bool.false_ne_true all.1)
      rintro ⟨table, _, himpossible, _⟩
      rw [htable] at himpossible
      cases himpossible
  | some table =>
      rcases Nat.lt_or_ge (qualifying config insert.values).length (2 ^ 31) with hfew | hmany
      · by_cases hnone : qualifying config insert.values = []
        · have hempty := buildInsertQuery_empty htable hnone validTimes
          refine iff_of_false ?_ fun all => ?_
          · rintro ⟨_, text, _, hquery, _⟩
            rw [hempty] at hquery
            cases hquery
          · have hvalue : value ∈ insert.values := by
              rw [hvalues]
              exact List.mem_append_right _ List.mem_cons_self
            have hmember : value ∈ qualifying config insert.values :=
              List.mem_filter.mpr ⟨hvalue, all.2.1⟩
            rw [hnone] at hmember
            cases hmember
        · rw [hasRow_of_built htable hvalues hnone hfew validTimes]
          exact ⟨fun hqualifies => ⟨rfl, hqualifies, hfew⟩, fun all => all.2.1⟩
      · have hoverflow := buildInsertQuery_overflows htable hmany validTimes
        refine iff_of_false ?_ (fun all => absurd all.2.2 (Nat.not_lt.mpr hmany))
        rintro ⟨_, text, _, hquery, _⟩
        rw [hoverflow] at hquery
        cases hquery

end Insert

/-! ## The rate of a pushed counter value -/

/-- A pushed value of a counter is judged by the low 32 bits of its delta
divided by the time. -/
theorem rate_of_pushed {row : Queryrow} {sample : Sample} (hcounter : row.bits ≠ 0)
    (hlater : row.cachedTime < sample.dtime) {value : ClinsertValue}
    (hvalue : valueOf row sample = .ok (some value)) :
    value.rate.toNat =
      value.counter.toNat / (sample.dtime - row.cachedTime).toNat % 2 ^ 32 := by
  rw [valueOf_eq] at hvalue
  split at hvalue
  · cases hvalue
  · exact rate_of_later hcounter hlater (acceptedValue_some (Except.ok.inj hvalue))

/-- A counter value that a poll pushed for a sample has its row, with zero deltas
off, exactly if its delta divided by the time is not a multiple of `2 ^ 32`, the
insert has a table, and an `int` can count its rows. -/
theorem delta_has_row_iff {config : Rtgconf} (hzero : config.allowDbZero = false)
    {Handle : Type} {sessOpen : SessOpen Handle} {replies : Nat → Reply} {host : Queryhost}
    {maxErrors : UInt32} {polled : Polled}
    (hpoll : getClinserts sessOpen replies host maxErrors = .ok polled) {number : Nat}
    {row : Queryrow} (hrow : host.rows[number]? = some row) (hcounter : row.bits ≠ 0)
    {sample : Sample} (hgot : Event.got number sample ∈ polled.history)
    (hlater : row.cachedTime < sample.dtime) {value : ClinsertValue}
    (hpushed : valuesOf number polled.history = [value]) {insert : Clinsert}
    {before after : List ClinsertValue} (hvalues : insert.values = before ++ value :: after)
    (validTimes : ∀ value ∈ insert.values, ValidTime value) :
    HasRow config insert before value after ↔
      value.counter.toNat / (sample.dtime - row.cachedTime).toNat % 2 ^ 32 ≠ 0 ∧
        insert.table.isSome ∧ (qualifying config insert.values).length < 2 ^ 31 := by
  obtain ⟨decided, hdecided, hlist⟩ := valuesOf_got hpoll hrow hgot
  have hvalue : valueOf row sample = .ok (some value) := by
    rw [hpushed] at hlist
    rw [hdecided, Option.toList_eq_singleton_iff.mp hlist.symm]
  have hrate := rate_of_pushed hcounter hlater hvalue
  have hqualifies : qualifies config value = true ↔ value.rate.toNat ≠ 0 := by
    rw [qualifies, hzero, Bool.false_or, decide_eq_true_iff]
    exact not_congr UInt32.toNat_inj.symm
  rw [hasRow_iff hvalues validTimes, hqualifies, hrate]
  exact and_left_comm

/-- The insert of one value for the octets that came in. -/
def octetsInsert (value : ClinsertValue) : Clinsert where
  table := some octetsIn
  values := [value]
  allocatedSpace := 8

/-- 600 octets in 300 seconds have a row. -/
theorem delta_has_row_fast :
    HasRow defaultRtgconf (octetsInsert (portValue 524)) [] (portValue 524) [] := by
  refine (@delta_has_row_iff defaultRtgconf rfl Unit (fun _ _ _ => some ()) (answers 700 600)
    (singleHost (portRow 524 octetsIn)) 3 _ rfl 0 (portRow 524 octetsIn) rfl (by decide) ⟨700, 600⟩
    List.mem_cons_self (by decide) (portValue 524) rfl (octetsInsert (portValue 524)) [] [] rfl
    ?_).mpr ⟨by decide, rfl, by decide⟩
  intro value hvalue
  rw [List.mem_singleton.mp hvalue]
  exact ⟨by decide, by decide⟩

/-- A value that says that the port has moved 100 octets in 300 seconds. -/
def slowValue : ClinsertValue := ⟨524, 100, 0, 600, 200⟩

/-- It is pushed, and no query is made of it. -/
theorem slow_delta_left_out :
    ∃ polled, getClinserts (fun _ _ _ => some ()) (answers 200 600)
        (singleHost (portRow 524 octetsIn)) 3 = .ok polled ∧
      Event.got 0 ⟨200, 600⟩ ∈ polled.history ∧ valuesOf 0 polled.history = [slowValue] ∧
      0 < slowValue.counter ∧ some (octetsInsert slowValue) ∈ polled.inserts ∧
      buildInsertQuery (octetsInsert slowValue) defaultRtgconf = .ok none ∧
      ¬ HasRow defaultRtgconf (octetsInsert slowValue) [] slowValue [] := by
  have hempty : buildInsertQuery (octetsInsert slowValue) defaultRtgconf = .ok none := by
    refine buildInsertQuery_empty rfl rfl fun value hvalue => ?_
    rw [List.mem_singleton.mp hvalue]
    exact ⟨by decide, by decide⟩
  refine ⟨_, rfl, List.mem_cons_self, rfl, by decide, List.mem_cons_self, hempty, ?_⟩
  rintro ⟨table, text, _, hquery, _⟩
  rw [hempty] at hquery
  cases hquery

end ClusteredPoller.Database
