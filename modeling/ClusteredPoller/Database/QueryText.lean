import ClusteredPoller.Database.BuildInsertQuery
import ClusteredPoller.Database.Statement
import ClusteredPoller.Library.Outcome

/-!
# The text of the query

`build_insert_query` prints a statement: the one that says what the insert
says, except that every currvalue has lost its high 32 bits.
-/

namespace ClusteredPoller.Database

open Library Library.Outcome Poller

/-! ## What an insert says -/

/-- The row of a value, with the fields of the configured columns. -/
def rowOf (config : Rtgconf) (value : ClinsertValue) : Row where
  id := value.id.toNat
  dtime := value.dtime.toNat
  counter := value.counter.toNat
  rate := if config.useRateColumn then some value.rate.toNat else none
  currvalue := if config.useCurrvalueColumn then some value.currvalue.toNat else none

/-- The values that become rows: all of them, or those with a rate. -/
def qualifying (config : Rtgconf) (values : List ClinsertValue) : List ClinsertValue :=
  values.filter (qualifies config)

def statementOf (config : Rtgconf) (table : CString) (values : List ClinsertValue) : Statement where
  table := table.chars
  rateColumn := config.useRateColumn
  currvalueColumn := config.useCurrvalueColumn
  rows := (qualifying config values).map (rowOf config)

theorem rowOf_fields (config : Rtgconf) (value : ClinsertValue) :
    (rowOf config value).rate.isSome = config.useRateColumn ∧
      (rowOf config value).currvalue.isSome = config.useCurrvalueColumn := by
  unfold rowOf
  constructor
  · cases config.useRateColumn <;> rfl
  · cases config.useCurrvalueColumn <;> rfl

theorem statementOf_wellFormed {config : Rtgconf} {table : CString}
    {values : List ClinsertValue} (htable : ' ' ∉ table.chars)
    (hvalues : qualifying config values ≠ []) :
    (statementOf config table values).WellFormed where
  table := htable
  rows hrows := hvalues (List.map_eq_nil_iff.mp hrows)
  rate row hrow := by
    obtain ⟨value, _, rfl⟩ := List.mem_map.mp hrow
    exact (rowOf_fields config value).1
  currvalue row hrow := by
    obtain ⟨value, _, rfl⟩ := List.mem_map.mp hrow
    exact (rowOf_fields config value).2

/-- The value as `%u` shows it. -/
def narrow (value : ClinsertValue) : ClinsertValue :=
  { value with currvalue := value.currvalue.toUInt32.toUInt64 }

theorem qualifying_narrow (config : Rtgconf) (values : List ClinsertValue) :
    qualifying config (values.map narrow) = (qualifying config values).map narrow := by
  rw [qualifying, qualifying, List.filter_map]
  rfl

/-- The time is one that a nonnegative `time_t` can hold. -/
def ValidTime (value : ClinsertValue) : Prop := 0 ≤ value.dtime ∧ value.dtime < 2 ^ 63

/-! ## Steps that append -/

/-- The step never fails and appends these characters. -/
def Appends (step : Clgstr → Except Fault Clgstr) (chars : List Char) : Prop :=
  ∀ gs text, Clgstr.Terminated gs text → ∃ after final, step gs = .ok after ∧
    after.Terminated final ∧ final.chars = text.chars ++ chars

theorem appends_string (str : CString) :
    Appends (fun gs => clgstrAppend gs (some str)) str.chars := by
  intro gs text terminated
  obtain ⟨after, hafter, hholds⟩ := Clgstr.append_holds terminated.toHolds str
  exact ⟨after, _, hafter, hholds, rfl⟩

theorem Appends.bind {first second : Clgstr → Except Fault Clgstr} {chars more : List Char}
    (hfirst : Appends first chars) (hsecond : Appends second more) :
    Appends (fun gs => first gs >>= second) (chars ++ more) := by
  intro gs text terminated
  obtain ⟨middle, middleText, hmiddle, hterminated, hchars⟩ := hfirst gs text terminated
  obtain ⟨after, final, hafter, hholds, hmore⟩ := hsecond middle middleText hterminated
  refine ⟨after, final, ?_, hholds, ?_⟩
  · change (first gs >>= second) = _
    rw [hmiddle, ok_bind, hafter]
  · rw [hmore, hchars, List.append_assoc]

/-- A step under a flag appends under that flag. -/
theorem Appends.when {step : Clgstr → Except Fault Clgstr} {chars : List Char}
    (hstep : Appends step chars) (flag : Bool) :
    Appends (appendIf flag step) (if flag = true then chars else []) := by
  cases flag with
  | true => exact hstep
  | false =>
      intro gs text terminated
      exact ⟨gs, text, rfl, terminated, (List.append_nil _).symm⟩

/-- No number of the source is wider than the buffer. -/
theorem appends_number {number : Nat} (hnumber : number < 2 ^ 64) :
    Appends (fun gs => clgstrAppend gs (printNumber number)) (Format.decimal.print number) := by
  have hfits : number < 10 ^ (bufferLength - 1) := Nat.lt_trans hnumber (by decide)
  rw [printNumber, snprintf_decimal (by decide) hfits]
  exact appends_string _

theorem appends_field {number : Nat} (hnumber : number < 2 ^ 64) :
    Appends (appendField number) (", ".toList ++ Format.decimal.print number) :=
  (appends_string (CString.ofString ", ")).bind (appends_number hnumber)

/-! ## Series -/

theorem appendSeries_appends (config : Rtgconf) {value : ClinsertValue}
    (validTime : ValidTime value) :
    Appends (appendSeries config value)
      ((series config.useRateColumn config.useCurrvalueColumn).print
        (rowOf config (narrow value))) := by
  have htime : unsignedOfTime value.dtime = value.dtime.toNat :=
    unsignedOfTime_of_nonneg validTime.1
  have hbound : value.dtime.toNat < 2 ^ 64 := by
    have hlimit := validTime.2
    omega
  have hid : value.id.toNat < 2 ^ 64 := Nat.lt_trans value.id.toNat_lt (by decide)
  have hrate : value.rate.toNat < 2 ^ 64 := Nat.lt_trans value.rate.toNat_lt (by decide)
  have hcurrvalue : value.currvalue.toUInt32.toNat < 2 ^ 64 :=
    Nat.lt_trans value.currvalue.toUInt32.toNat_lt (by decide)
  have happends :=
    (appends_string (CString.ofString "(")).bind <|
    (appends_number hid).bind <|
    (appends_string (CString.ofString ", FROM_UNIXTIME(")).bind <|
    (appends_number hbound).bind <|
    (appends_string (CString.ofString ")")).bind <|
    (appends_string (CString.ofString ", ")).bind <|
    (appends_number value.counter.toNat_lt).bind <|
    ((appends_field hrate).when config.useRateColumn).bind <|
    ((appends_field hcurrvalue).when config.useCurrvalueColumn).bind <|
    appends_string (CString.ofString ")")
  unfold appendSeries
  rw [htime, series_print]
  simp only [rowOf, extraField_print]
  exact happends

/-- The text of one more row, with a separator unless it is the first one. -/
def printRow (config : Rtgconf) (rows : Nat) (value : ClinsertValue) : List Char :=
  (if decide (rows > 0) = true then ", ".toList else []) ++
    (series config.useRateColumn config.useCurrvalueColumn).print (rowOf config (narrow value))

/-- The texts of the qualifying values behind a number of rows. -/
def printRows (config : Rtgconf) (rows : Nat) (values : List ClinsertValue) : List Char :=
  let format := series config.useRateColumn config.useCurrvalueColumn
  let printed := (qualifying config values).map fun value => rowOf config (narrow value)
  if rows > 0 then format.printTail ", ".toList printed else format.printList ", ".toList printed

theorem printRows_nil (config : Rtgconf) (rows : Nat) : printRows config rows [] = [] :=
  ite_self _

theorem qualifying_skip {config : Rtgconf} {value : ClinsertValue}
    (hskip : qualifies config value = false) (values : List ClinsertValue) :
    qualifying config (value :: values) = qualifying config values := by
  rw [qualifying, List.filter_cons, hskip]
  rfl

theorem qualifying_cons {config : Rtgconf} {value : ClinsertValue}
    (hrow : qualifies config value = true) (values : List ClinsertValue) :
    qualifying config (value :: values) = value :: qualifying config values := by
  rw [qualifying, List.filter_cons, if_pos hrow]
  rfl

theorem printRows_skip {config : Rtgconf} {value : ClinsertValue}
    (hskip : qualifies config value = false) (rows : Nat) (values : List ClinsertValue) :
    printRows config rows (value :: values) = printRows config rows values := by
  rw [printRows, qualifying_skip hskip, printRows]

theorem printRows_cons {config : Rtgconf} {value : ClinsertValue}
    (hrow : qualifies config value = true) (rows : Nat) (values : List ClinsertValue) :
    printRows config rows (value :: values) =
      printRow config rows value ++ printRows config (rows + 1) values := by
  simp only [printRows, printRow, qualifying_cons hrow, List.map_cons, decide_eq_true_eq]
  rw [if_pos (Nat.succ_pos rows)]
  cases rows with
  | zero => rfl
  | succ rows =>
      rw [if_pos (Nat.succ_pos rows), if_pos (Nat.succ_pos rows), Format.printTail,
        List.flatMap_cons]
      rfl

/-- The appends of one turn of the loop. -/
theorem appendRow_appends (config : Rtgconf) (rows : Nat) {value : ClinsertValue}
    (validTime : ValidTime value) :
    Appends (fun gs => appendIf (rows > 0) (fun gs => clgstrAppend gs (literal ", ")) gs >>=
      appendSeries config value) (printRow config rows value) :=
  ((appends_string (CString.ofString ", ")).when (decide (rows > 0))).bind
    (appendSeries_appends config validTime)

/-- One turn of the loop for a qualifying value. -/
theorem appendValues_row {config : Rtgconf} {value : ClinsertValue}
    (hrow : qualifies config value = true) (validTime : ValidTime value) (rows : Nat)
    {gs : Clgstr} {text : CString} (terminated : gs.Terminated text) :
    ∃ after final, after.Terminated final ∧
      final.chars = text.chars ++ printRow config rows value ∧
      ∀ values, appendValues config (value :: values) rows gs =
        countRow rows >>= fun counted => appendValues config values counted after := by
  obtain ⟨after, final, hafter, hterminated, hchars⟩ :=
    appendRow_appends config rows validTime gs text terminated
  refine ⟨after, final, hterminated, hchars, fun values => ?_⟩
  rw [appendValues, if_pos hrow]
  obtain ⟨separated, hseparated, hseries⟩ := bind_eq_ok.mp hafter
  rw [hseparated, ok_bind, hseries, ok_bind]

/-- The loop prints the qualifying values as long as an `int` can count them. -/
theorem appendValues_prints {config : Rtgconf} {values : List ClinsertValue}
    (validTimes : ∀ value ∈ values, ValidTime value) {rows : Nat} {gs : Clgstr}
    {text : CString} (terminated : gs.Terminated text)
    (hcount : rows + (qualifying config values).length < 2 ^ 31) :
    ∃ after final,
      appendValues config values rows gs =
        .ok (rows + (qualifying config values).length, after) ∧
      after.Terminated final ∧ final.chars = text.chars ++ printRows config rows values := by
  induction values generalizing rows gs text with
  | nil =>
      refine ⟨gs, text, rfl, terminated, ?_⟩
      rw [printRows_nil, List.append_nil]
  | cons value values ih =>
      have hvalid := validTimes value List.mem_cons_self
      have hothers : ∀ other ∈ values, ValidTime other :=
        fun other hother => validTimes other (List.mem_cons_of_mem _ hother)
      cases hrow : qualifies config value with
      | false =>
          rw [qualifying_skip hrow] at hcount ⊢
          rw [printRows_skip hrow, appendValues, hrow]
          exact ih hothers terminated hcount
      | true =>
          rw [qualifying_cons hrow, List.length_cons] at hcount
          obtain ⟨middle, middleText, hterminated, hchars, hturn⟩ :=
            appendValues_row hrow hvalid rows terminated
          have hnext : rows + 1 + (qualifying config values).length < 2 ^ 31 := by omega
          obtain ⟨after, final, hafter, hholds, hmore⟩ := ih hothers hterminated hnext
          refine ⟨after, final, ?_, hholds, ?_⟩
          · rw [hturn, countRow, if_pos (by omega), ok_bind, hafter, qualifying_cons hrow,
              List.length_cons]
            exact congrArg (fun count => Except.ok (count, after)) (by omega)
          · rw [hmore, hchars, printRows_cons hrow, List.append_assoc]

/-- With more of them the loop leaves the range of `int`. -/
theorem appendValues_overflows {config : Rtgconf} {values : List ClinsertValue}
    (validTimes : ∀ value ∈ values, ValidTime value) {rows : Nat} {gs : Clgstr}
    {text : CString} (terminated : gs.Terminated text) (hrows : rows < 2 ^ 31)
    (hcount : 2 ^ 31 ≤ rows + (qualifying config values).length) :
    appendValues config values rows gs = .error .signedOverflow := by
  induction values generalizing rows gs text with
  | nil => exact absurd hcount (Nat.not_le.mpr hrows)
  | cons value values ih =>
      have hvalid := validTimes value List.mem_cons_self
      have hothers : ∀ other ∈ values, ValidTime other :=
        fun other hother => validTimes other (List.mem_cons_of_mem _ hother)
      cases hrow : qualifies config value with
      | false =>
          rw [qualifying_skip hrow] at hcount
          rw [appendValues, hrow]
          exact ih hothers terminated hrows hcount
      | true =>
          rw [qualifying_cons hrow, List.length_cons] at hcount
          obtain ⟨middle, middleText, hterminated, _, hturn⟩ :=
            appendValues_row hrow hvalid rows terminated
          rw [hturn, countRow]
          split
          · rename_i hfits
            rw [ok_bind]
            exact ih hothers hterminated hfits (by omega)
          · rfl

/-! ## The whole query -/

/-- The text in front of the rows. -/
def printHeader (config : Rtgconf) (table : CString) : List Char :=
  table.chars ++ (" (id, dtime, counter".toList ++
    ((if config.useRateColumn = true then ", rate".toList else []) ++
      ((if config.useCurrvalueColumn = true then ", currvalue".toList else []) ++
        ") VALUES ".toList)))

theorem appendHeader_prints (config : Rtgconf) (table : CString) :
    ∃ gs text, appendHeader (some table) config (clgstrCreate 64) = .ok gs ∧
      Clgstr.Terminated gs text ∧
      text.chars = "INSERT INTO ".toList ++ printHeader config table := by
  obtain ⟨first, hfirst, hterminated⟩ :=
    Clgstr.append_holds (Clgstr.create_holds 64) (CString.ofString "INSERT INTO ")
  have hothers :=
    (appends_string table).bind <|
    (appends_string (CString.ofString " (id, dtime, counter")).bind <|
    ((appends_string (CString.ofString ", rate")).when config.useRateColumn).bind <|
    ((appends_string (CString.ofString ", currvalue")).when config.useCurrvalueColumn).bind <|
    appends_string (CString.ofString ") VALUES ")
  obtain ⟨gs, text, hgs, hholds, hchars⟩ := hothers first _ hterminated
  refine ⟨gs, text, ?_, hholds, hchars⟩
  unfold appendHeader
  rw [literal, hfirst, ok_bind]
  exact hgs

/-- With the rows, the printed text is that of the narrowed statement. -/
theorem print_statementOf (config : Rtgconf) (table : CString) (values : List ClinsertValue) :
    "INSERT INTO ".toList ++ printHeader config table ++ printRows config 0 values =
      statementFormat.print (statementOf config table (values.map narrow)) := by
  have hrows : (qualifying config (values.map narrow)).map (rowOf config) =
      (qualifying config values).map fun value => rowOf config (narrow value) := by
    rw [qualifying_narrow, List.map_map]
    rfl
  rw [printRows, if_neg (Nat.lt_irrefl 0), ← hrows]
  simp only [printHeader, List.append_assoc]
  rfl

section Query

variable {insert : Clinsert} {config : Rtgconf} {table : CString}

/-- Without a qualifying value there is no query. -/
theorem buildInsertQuery_empty (htable : insert.table = some table)
    (hnone : qualifying config insert.values = [])
    (validTimes : ∀ value ∈ insert.values, ValidTime value) :
    buildInsertQuery insert config = .ok none := by
  obtain ⟨gs, text, hheader, hterminated, _⟩ := appendHeader_prints config table
  have hcount : 0 + (qualifying config insert.values).length < 2 ^ 31 := by
    rw [hnone]
    decide
  obtain ⟨after, _, hvalues, _, _⟩ := appendValues_prints validTimes hterminated hcount
  rw [buildInsertQuery, htable, hheader, ok_bind, hvalues, ok_bind, hnone]
  rfl

/-- With qualifying values that an `int` can count, the query is the text of
the narrowed statement. -/
theorem buildInsertQuery_prints (htable : insert.table = some table)
    (hsome : qualifying config insert.values ≠ [])
    (hcount : (qualifying config insert.values).length < 2 ^ 31)
    (validTimes : ∀ value ∈ insert.values, ValidTime value) :
    ∃ query, buildInsertQuery insert config = .ok (some query) ∧
      query.chars =
        statementFormat.print (statementOf config table (insert.values.map narrow)) := by
  obtain ⟨gs, text, hheader, hterminated, hchars⟩ := appendHeader_prints config table
  obtain ⟨after, final, hvalues, hholds, hmore⟩ :=
    @appendValues_prints config insert.values validTimes 0 gs text hterminated (by omega)
  have hpositive : 0 + (qualifying config insert.values).length > 0 := by
    have hlength := List.length_pos_iff.mpr hsome
    omega
  refine ⟨final, ?_, ?_⟩
  · rw [buildInsertQuery, htable, hheader, ok_bind, hvalues, ok_bind]
    dsimp only
    rw [if_pos hpositive, hholds.strdup_eq]
    rfl
  · rw [hmore, hchars, print_statementOf]

theorem buildInsertQuery_overflows (htable : insert.table = some table)
    (hcount : 2 ^ 31 ≤ (qualifying config insert.values).length)
    (validTimes : ∀ value ∈ insert.values, ValidTime value) :
    buildInsertQuery insert config = .error .signedOverflow := by
  obtain ⟨gs, text, hheader, hterminated, _⟩ := appendHeader_prints config table
  have hvalues := @appendValues_overflows config insert.values validTimes 0 gs text hterminated
    (by decide) (by omega)
  rw [buildInsertQuery, htable, hheader, ok_bind, hvalues, error_bind]

end Query

end ClusteredPoller.Database
