import ClusteredPoller.Database.QueryText

/-!
# Reading the query back

`%u` prints the low 32 bits of a currvalue, so the text of an insert tells its
currvalues exactly when they fit in 32 bits.
-/

namespace ClusteredPoller.Database

open Poller

/-- The query is `NULL` exactly when no value qualifies, and any other query
decodes to what the insert says. -/
def RoundTrips (decode : List Char → Option Statement) (insert : Clinsert) (table : CString)
    (config : Rtgconf) : Prop :=
  ∃ query, buildInsertQuery insert config = .ok query ∧
    (query = none ↔ qualifying config insert.values = []) ∧
    ∀ text, query = some text → decode text.chars = some (statementOf config table insert.values)

/-- Every currvalue that is printed fits in 32 bits. -/
def NarrowCurrvalues (insert : Clinsert) (config : Rtgconf) : Prop :=
  config.useCurrvalueColumn = true →
    ∀ value ∈ qualifying config insert.values, value.currvalue.toNat < 2 ^ 32

theorem narrow_currvalue (value : ClinsertValue) :
    (narrow value).currvalue.toNat = value.currvalue.toNat % 2 ^ 32 := by
  rw [narrow, UInt32.toNat_toUInt64, UInt64.toNat_toUInt32]

/-- Narrowing leaves the row of a value as it is exactly when the currvalue is
not printed or fits. -/
theorem rowOf_narrow_iff (config : Rtgconf) (value : ClinsertValue) :
    rowOf config (narrow value) = rowOf config value ↔
      (config.useCurrvalueColumn = true → value.currvalue.toNat < 2 ^ 32) := by
  rw [rowOf, rowOf, narrow_currvalue]
  cases config.useCurrvalueColumn with
  | false =>
      refine iff_of_true rfl fun impossible => ?_
      cases impossible
  | true =>
      simp only [narrow, if_true, Row.mk.injEq, Option.some.injEq, true_and, forall_const]
      constructor
      · intro heq
        rw [← heq]
        exact Nat.mod_lt _ (by decide)
      · exact Nat.mod_eq_of_lt

/-- The printed statement is that of the insert exactly when its currvalues are
narrow. -/
theorem statementOf_narrow_iff (insert : Clinsert) (table : CString) (config : Rtgconf) :
    statementOf config table (insert.values.map narrow) = statementOf config table insert.values ↔
      NarrowCurrvalues insert config := by
  simp only [statementOf, Statement.mk.injEq, true_and, qualifying_narrow, List.map_map]
  rw [List.map_inj_left]
  constructor
  · intro hrows hcolumn value hvalue
    exact (rowOf_narrow_iff config value).mp (hrows value hvalue) hcolumn
  · intro hnarrow value hvalue
    exact (rowOf_narrow_iff config value).mpr fun hcolumn => hnarrow hcolumn value hvalue

theorem narrow_narrow (value : ClinsertValue) : narrow (narrow value) = narrow value := by
  rw [narrow, narrow, UInt32.toUInt32_toUInt64]

/-- The insert whose currvalues are those that are printed. -/
def narrowInsert (insert : Clinsert) : Clinsert :=
  { insert with values := insert.values.map narrow }

theorem narrowInsert_values (insert : Clinsert) :
    (narrowInsert insert).values.map narrow = insert.values.map narrow := by
  rw [narrowInsert, List.map_map]
  exact List.map_congr_left fun value _ => narrow_narrow value

section Insert

variable {insert : Clinsert} {table : CString} {config : Rtgconf}

/-- An insert and its narrowed copy give the same query. -/
theorem buildInsertQuery_narrowInsert (htable : insert.table = some table)
    (validTimes : ∀ value ∈ insert.values, ValidTime value) :
    buildInsertQuery (narrowInsert insert) config = buildInsertQuery insert config := by
  have hnarrowTimes : ∀ value ∈ (narrowInsert insert).values, ValidTime value := by
    intro value hvalue
    obtain ⟨wide, hwide, rfl⟩ := List.mem_map.mp hvalue
    exact validTimes wide hwide
  have hqualifying : qualifying config (narrowInsert insert).values =
      (qualifying config insert.values).map narrow := qualifying_narrow config insert.values
  have hlength : (qualifying config (narrowInsert insert).values).length =
      (qualifying config insert.values).length := by
    rw [hqualifying, List.length_map]
  by_cases hnone : qualifying config insert.values = []
  · rw [buildInsertQuery_empty htable hnone validTimes]
    exact buildInsertQuery_empty htable (by rw [hqualifying, hnone]; rfl) hnarrowTimes
  · rcases Nat.lt_or_ge (qualifying config insert.values).length (2 ^ 31) with hfew | hmany
    · obtain ⟨query, hquery, hchars⟩ := buildInsertQuery_prints htable hnone hfew validTimes
      obtain ⟨other, hother, hsame⟩ := @buildInsertQuery_prints (narrowInsert insert) config table
        htable (fun hempty => hnone (List.map_eq_nil_iff.mp (hqualifying.symm.trans hempty)))
        (hlength ▸ hfew) hnarrowTimes
      rw [narrowInsert_values, ← hchars] at hsame
      rw [hquery, hother, CString.ext hsame]
    · rw [buildInsertQuery_overflows htable hmany validTimes]
      exact buildInsertQuery_overflows htable (hlength.symm ▸ hmany) hnarrowTimes

/-- The decoder is right about a query exactly when the currvalues were narrow. -/
theorem decode_query_iff (htable : insert.table = some table) (hspace : ' ' ∉ table.chars)
    (validTimes : ∀ value ∈ insert.values, ValidTime value)
    (hsome : qualifying config insert.values ≠ [])
    (hfew : (qualifying config insert.values).length < 2 ^ 31) :
    RoundTrips decodeStatement insert table config ↔ NarrowCurrvalues insert config := by
  obtain ⟨query, hquery, hchars⟩ := buildInsertQuery_prints htable hsome hfew validTimes
  have hnarrow : qualifying config (insert.values.map narrow) ≠ [] := by
    rw [qualifying_narrow]
    exact fun hempty => hsome (List.map_eq_nil_iff.mp hempty)
  have hdecoded : decodeStatement query.chars =
      some (statementOf config table (insert.values.map narrow)) := by
    rw [hchars]
    exact decodeStatement_print (statementOf_wellFormed hspace hnarrow)
  rw [← statementOf_narrow_iff insert table config]
  constructor
  · rintro ⟨built, hbuilt, _, hdecode⟩
    rw [hquery] at hbuilt
    cases hbuilt
    have hsays := hdecode query rfl
    rw [hdecoded] at hsays
    exact Option.some.inj hsays
  · intro hsame
    refine ⟨some query, hquery, iff_of_false (Option.some_ne_none _) hsome, ?_⟩
    rintro text ⟨⟩
    rw [hdecoded, hsame]

/-- Where a currvalue is not narrow, no decoder is right about both the insert
and its narrowed copy. -/
theorem narrowInsert_not_told_apart (htable : insert.table = some table)
    (validTimes : ∀ value ∈ insert.values, ValidTime value)
    (hwide : ¬ NarrowCurrvalues insert config) {decode : List Char → Option Statement}
    (hdecode : RoundTrips decode insert table config) :
    ¬ RoundTrips decode (narrowInsert insert) table config := by
  obtain ⟨query, hquery, hnull, hsays⟩ := hdecode
  rintro ⟨other, hother, _, hagain⟩
  rw [buildInsertQuery_narrowInsert htable validTimes, hquery] at hother
  cases hother
  cases query with
  | none =>
      refine hwide fun _ value hvalue => ?_
      rw [hnull.mp rfl] at hvalue
      cases hvalue
  | some text =>
      have hsame := hsays text rfl
      rw [hagain text rfl] at hsame
      exact hwide ((statementOf_narrow_iff insert table config).mp (Option.some.inj hsame))

/-- The decoder gives back what an insert says exactly when its printed
currvalues fit in 32 bits and an `int` can count its rows; and where a currvalue
does not fit, no other decoder does better. -/
theorem query_round_trips_iff (htable : insert.table = some table) (hspace : ' ' ∉ table.chars)
    (validTimes : ∀ value ∈ insert.values, ValidTime value) :
    (RoundTrips decodeStatement insert table config ↔
      NarrowCurrvalues insert config ∧ (qualifying config insert.values).length < 2 ^ 31) ∧
    (¬ NarrowCurrvalues insert config → ∀ decode, RoundTrips decode insert table config →
      ¬ RoundTrips decode (narrowInsert insert) table config) := by
  refine ⟨?_, fun hwide _ => narrowInsert_not_told_apart htable validTimes hwide⟩
  by_cases hnone : qualifying config insert.values = []
  · refine iff_of_true ?_ ⟨fun _ value hvalue => ?_, ?_⟩
    · exact ⟨none, buildInsertQuery_empty htable hnone validTimes, iff_of_true rfl hnone,
        fun _ impossible => nomatch impossible⟩
    · rw [hnone] at hvalue
      cases hvalue
    · rw [hnone]
      decide
  · rcases Nat.lt_or_ge (qualifying config insert.values).length (2 ^ 31) with hfew | hmany
    · rw [decode_query_iff htable hspace validTimes hnone hfew]
      exact ⟨fun hnarrow => ⟨hnarrow, hfew⟩, And.left⟩
    · refine iff_of_false ?_ fun both => absurd both.2 (Nat.not_lt.mpr hmany)
      rintro ⟨query, hquery, _⟩
      rw [buildInsertQuery_overflows htable hmany validTimes] at hquery
      cases hquery

end Insert

/-- The settings under the command line option `-C`. -/
def currvalueConfig : Rtgconf := { defaultRtgconf with useCurrvalueColumn := true }

def ifOutOctets : CString := CString.ofString "ifOutOctets_276"

/-- An insert of one value with this currvalue. -/
def oneValue (currvalue : UInt64) : Clinsert where
  table := some ifOutOctets
  values := [⟨2816, 1500, 5, 1300, currvalue⟩]
  allocatedSpace := 8

theorem oneValue_validTimes (currvalue : UInt64) :
    ∀ value ∈ (oneValue currvalue).values, ValidTime value := by
  intro value hvalue
  rw [List.mem_singleton.mp hvalue]
  change (0 : Int) ≤ 1300 ∧ (1300 : Int) < 2 ^ 63
  decide

theorem ifOutOctets_no_whitespace : ∀ char ∈ ifOutOctets.chars, char.isWhitespace = false := by
  intro char hchar
  have hall : ifOutOctets.chars.all (fun char => !char.isWhitespace) = true := rfl
  simpa using List.all_eq_true.mp hall char hchar

/-- No decoder is right about all inserts: one with currvalue `2 ^ 32` has the
query of one with currvalue zero. -/
theorem no_decoder_for_wide_currvalues :
    ¬ ∃ decode, ∀ insert table config, insert.table = some table → table.chars ≠ [] →
      (∀ char ∈ table.chars, char.isWhitespace = false) →
      (∀ value ∈ insert.values, ValidTime value) → RoundTrips decode insert table config := by
  rintro ⟨decode, hdecode⟩
  have hall : ∀ currvalue, RoundTrips decode (oneValue currvalue) ifOutOctets currvalueConfig := by
    intro currvalue
    exact hdecode _ _ _ rfl (by decide) ifOutOctets_no_whitespace (oneValue_validTimes currvalue)
  have hwide : ¬ NarrowCurrvalues (oneValue 4294967296) currvalueConfig := by
    intro hnarrow
    exact absurd (hnarrow rfl _ List.mem_cons_self) (by decide)
  exact narrowInsert_not_told_apart rfl (oneValue_validTimes 4294967296) hwide
    (hall 4294967296) (hall 0)

/-- The greatest currvalue that is read back. -/
theorem query_round_trips_largest :
    RoundTrips decodeStatement (oneValue 4294967295) ifOutOctets currvalueConfig :=
  (query_round_trips_iff rfl (by decide) (oneValue_validTimes 4294967295)).1.mpr
    ⟨fun _ value hvalue => by rw [List.mem_singleton.mp hvalue]; decide, by decide⟩

end ClusteredPoller.Database
