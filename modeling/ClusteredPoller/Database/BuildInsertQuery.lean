import ClusteredPoller.Database.Clgstr
import ClusteredPoller.Poller.Clinsert
import ClusteredPoller.Rtgconf

/-!
# The query of an insert

`build_insert_query` of `database.c`.
-/

namespace ClusteredPoller.Database

open Poller

/-- A string literal of the source. -/
def literal (text : String) (noNul : '\x00' ∉ text.toList := by decide) : Option CString :=
  some (CString.ofString text noNul)

def bufferLength : Nat := 32

/-- `snprintf(buffer, buffer_length, "%u", ...)`, and the same for `%lu` and
`%llu`, of a number of the conversion's own width. -/
def printNumber (number : Nat) : Option CString :=
  some (snprintf bufferLength (CString.decimal number))

/-- Whether a value becomes a row of the query. -/
def qualifies (config : Rtgconf) (value : ClinsertValue) : Bool :=
  config.allowDbZero || value.rate ≠ 0

/-- A step under an `if` without an `else`. -/
def appendIf (flag : Bool) (step : Clgstr → Except Fault Clgstr) (gs : Clgstr) :
    Except Fault Clgstr :=
  if flag then step gs else .ok gs

/-- The block for the rate and the block for the currvalue. -/
def appendField (number : Nat) (gs : Clgstr) : Except Fault Clgstr := do
  let gs ← clgstrAppend gs (literal ", ")
  clgstrAppend gs (printNumber number)

/-- One series, with its parentheses. -/
def appendSeries (config : Rtgconf) (value : ClinsertValue) (gs : Clgstr) :
    Except Fault Clgstr := do
  let gs ← clgstrAppend gs (literal "(")
  let gs ← clgstrAppend gs (printNumber value.id.toNat)
  let gs ← clgstrAppend gs (literal ", FROM_UNIXTIME(")
  let gs ← clgstrAppend gs (printNumber (unsignedOfTime value.dtime))
  let gs ← clgstrAppend gs (literal ")")
  let gs ← clgstrAppend gs (literal ", ")
  let gs ← clgstrAppend gs (printNumber value.counter.toNat)
  let gs ← appendIf config.useRateColumn (appendField value.rate.toNat) gs
  -- `%u` reads an `unsigned` where an `unsigned long long` was passed.
  let gs ← appendIf config.useCurrvalueColumn
    (appendField value.currvalue.toUInt32.toNat) gs
  clgstrAppend gs (literal ")")

/-- `rows++` for an `int`. -/
def countRow (rows : Nat) : Except Fault Nat :=
  if rows + 1 < 2 ^ 31 then .ok (rows + 1) else .error .signedOverflow

/-- The loop over the values. -/
def appendValues (config : Rtgconf) :
    List ClinsertValue → Nat → Clgstr → Except Fault (Nat × Clgstr)
  | [], rows, gs => .ok (rows, gs)
  | value :: values, rows, gs =>
      if qualifies config value then do
        let gs ← appendIf (rows > 0) (fun gs => clgstrAppend gs (literal ", ")) gs
        let gs ← appendSeries config value gs
        let rows ← countRow rows
        appendValues config values rows gs
      else
        appendValues config values rows gs

/-- The text in front of the series. -/
def appendHeader (table : Option CString) (config : Rtgconf) (gs : Clgstr) :
    Except Fault Clgstr := do
  let gs ← clgstrAppend gs (literal "INSERT INTO ")
  let gs ← clgstrAppend gs table
  let gs ← clgstrAppend gs (literal " (id, dtime, counter")
  let gs ← appendIf config.useRateColumn (fun gs => clgstrAppend gs (literal ", rate")) gs
  let gs ← appendIf config.useCurrvalueColumn (fun gs => clgstrAppend gs (literal ", currvalue")) gs
  clgstrAppend gs (literal ") VALUES ")

def buildInsertQuery (insert : Clinsert) (config : Rtgconf) : Except Fault (Option CString) := do
  let gs ← appendHeader insert.table config (clgstrCreate 64)
  let built ← appendValues config insert.values 0 gs
  if built.1 > 0 then do
    let query ← strdup (clgstrString built.2)
    return some query
  else
    return none

end ClusteredPoller.Database
