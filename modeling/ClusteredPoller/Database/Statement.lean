import ClusteredPoller.Library.Format

/-!
# INSERT statements

What an INSERT statement says, and the text format of such statements: a table
name free of spaces, the columns, and the rows.  The rate and currvalue columns
may be missing, and a row has a field exactly for each column.
-/

namespace ClusteredPoller.Database

open Library

/-- The fields of one series; `none` for a column that is missing. -/
structure Row where
  id : Nat
  dtime : Nat
  counter : Nat
  rate : Option Nat
  currvalue : Option Nat
  deriving DecidableEq

/-- The columns are id, dtime and counter, and those of rate and currvalue that
are present. -/
structure Statement where
  table : List Char
  rateColumn : Bool
  currvalueColumn : Bool
  rows : List Row
  deriving DecidableEq

/-- A number between commas, or no number. -/
def extraField (present : Bool) : Format (Option Nat) :=
  (Format.decimal.precede ", ".toList).optional present

theorem extraField_print (present : Bool) (number : Nat) :
    (extraField present).print (if present = true then some number else none) =
      if present = true then ", ".toList ++ Format.decimal.print number else [] := by
  cases present <;> rfl

theorem decimal_follow {char : Char} (hchar : char.isDigit = false) (rest : List Char) :
    Format.decimal.Follow (char :: rest) := Format.ends_cons hchar rest

theorem extraField_follow {char : Char} (hchar : char.isDigit = false) (present : Bool)
    (rest : List Char) : (extraField present).Follow (char :: rest) :=
  fun _ => decimal_follow hchar rest

/-- Behind a number, the optional fields start with a comma or give way to what
follows them. -/
theorem decimal_follow_extraField {rest : List Char} (follow : Format.decimal.Follow rest)
    (present : Bool) (field : Option Nat) :
    Format.decimal.Follow ((extraField present).print field ++ rest) := by
  cases field with
  | none => exact follow
  | some number => exact decimal_follow rfl _

/-- The last fields of a series, up to its parenthesis. -/
def lastFields (rate currvalue : Bool) : Format (Option Nat × Option Nat) :=
  (extraField rate).andThen
    (fun _ => (extraField currvalue).close ")".toList fun rest =>
      extraField_follow rfl currvalue rest)
    fun _ field rest _ _ _ => by
      have hparen : Format.decimal.Follow (")".toList ++ rest) := decimal_follow rfl rest
      change Format.decimal.Follow (((extraField currvalue).print field ++ ")".toList) ++ rest)
      rw [List.append_assoc]
      exact decimal_follow_extraField hparen currvalue field

theorem decimal_follow_lastFields (rate currvalue : Bool) (fields : Option Nat × Option Nat)
    (rest : List Char) :
    Format.decimal.Follow ((lastFields rate currvalue).print fields ++ rest) := by
  have hparen : Format.decimal.Follow (")".toList ++ rest) := decimal_follow rfl rest
  change Format.decimal.Follow (((extraField rate).print fields.1 ++
    ((extraField currvalue).print fields.2 ++ ")".toList)) ++ rest)
  rw [List.append_assoc, List.append_assoc]
  exact decimal_follow_extraField (decimal_follow_extraField hparen currvalue fields.2) rate
    fields.1

/-- One series.  The time stands inside a call of `FROM_UNIXTIME`. -/
def series (rate currvalue : Bool) : Format Row :=
  ((Format.decimal.andThen
      (fun _ => (Format.decimal.andThen
          (fun _ => (Format.decimal.andThen (fun _ => lastFields rate currvalue)
            fun _ fields rest _ _ => decimal_follow_lastFields rate currvalue fields rest).precede
              "), ".toList)
          fun _ _ _ _ _ => decimal_follow rfl _).precede ", FROM_UNIXTIME(".toList)
      fun _ _ _ _ _ => decimal_follow rfl _).precede "(".toList).map
    (fun fields => ⟨fields.1, fields.2.1, fields.2.2.1, fields.2.2.2.1, fields.2.2.2.2⟩)
    (fun row => (row.id, row.dtime, row.counter, row.rate, row.currvalue))
    fun _ => rfl

theorem series_print (rate currvalue : Bool) (row : Row) :
    (series rate currvalue).print row =
      "(".toList ++ (Format.decimal.print row.id ++
        (", FROM_UNIXTIME(".toList ++ (Format.decimal.print row.dtime ++
          ("), ".toList ++ (Format.decimal.print row.counter ++
            ((extraField rate).print row.rate ++
              ((extraField currvalue).print row.currvalue ++ ")".toList))))))) := rfl

/-- A row can be written down when it has just the fields of the columns. -/
theorem series_valid {rate currvalue : Bool} {row : Row} (hrate : row.rate.isSome = rate)
    (hcurrvalue : row.currvalue.isSome = currvalue) : (series rate currvalue).Valid row :=
  ⟨Format.decimal_valid _, Format.decimal_valid _, Format.decimal_valid _,
    ⟨hrate, fun _ _ => Format.decimal_valid _⟩, hcurrvalue, fun _ _ => Format.decimal_valid _⟩

theorem series_follow (rate currvalue : Bool) (rest : List Char) :
    (series rate currvalue).Follow rest := fun _ _ _ _ => trivial

def rowList (rate currvalue : Bool) : Format (List Row) :=
  ((series rate currvalue).separated ", ".toList (by decide)
    fun _ => series_follow rate currvalue _).precede ") VALUES ".toList

/-- The two optional columns, then the rows that have their fields. -/
def columnsAndRows : Format (Bool × Bool × List Row) :=
  (Format.flag ", rate".toList).andThen
    (fun rate =>
      (Format.flag ", currvalue".toList).andThen (fun currvalue => rowList rate currvalue)
        fun _ _ _ _ _ => rfl)
    fun _ later _ _ _ => by
      obtain ⟨currvalue, rows⟩ := later
      cases currvalue <;> rfl

/-- The whole statement. -/
def statementFormat : Format Statement :=
  (((Format.run fun char => char ≠ ' ').andThen
      (fun _ => columnsAndRows.precede " (id, dtime, counter".toList)
      fun _ _ _ _ _ => Format.ends_cons rfl _).precede "INSERT INTO ".toList).map
    (fun parts => ⟨parts.1, parts.2.1, parts.2.2.1, parts.2.2.2⟩)
    (fun statement =>
      (statement.table, statement.rateColumn, statement.currvalueColumn, statement.rows))
    fun _ => rfl

def decodeStatement (text : List Char) : Option Statement := statementFormat.read text

/-- The statements that can be written down: the table name has no space, there
is at least one row, and every row has just the fields of the columns. -/
structure Statement.WellFormed (statement : Statement) : Prop where
  table : ' ' ∉ statement.table
  rows : statement.rows ≠ []
  rate : ∀ row ∈ statement.rows, row.rate.isSome = statement.rateColumn
  currvalue : ∀ row ∈ statement.rows, row.currvalue.isSome = statement.currvalueColumn

theorem decodeStatement_print {statement : Statement} (wellFormed : statement.WellFormed) :
    decodeStatement (statementFormat.print statement) = some statement := by
  refine Format.read_print statementFormat ?_ fun _ _ _ => ⟨series_follow _ _ _, rfl⟩
  refine ⟨fun char hchar => decide_eq_true ?_, trivial, trivial, wellFormed.rows, ?_⟩
  · rintro rfl
    exact wellFormed.table hchar
  · exact fun row hrow => series_valid (wellFormed.rate row hrow) (wellFormed.currvalue row hrow)

end ClusteredPoller.Database
