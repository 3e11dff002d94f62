import ClusteredPoller.Poller.Clinsert
import ClusteredPoller.Poller.Clsnmp
import ClusteredPoller.Poller.Rate
import ClusteredPoller.Poller.Targets

/-!
# One poll of a host

`get_clinserts` queries the rows of a host in order.  The replies are given by
row number, for the rows that are reached.  Beside what the function returns
and changes, a poll keeps its history: which rows answered, which failed, and
which values were pushed for which row.
-/

namespace ClusteredPoller.Poller

/-- A successful `clsnmp_get`: the counter and the time of the response. -/
structure Sample where
  counter : UInt64
  dtime : Int
  deriving DecidableEq

/-- What `clsnmp_get` gives for a row; `none` is a failure. -/
abbrev Reply := Option Sample

inductive Event where
  | got (row : Nat) (sample : Sample)
  | failed (row : Nat)
  | pushed (row : Nat) (table : Option CString) (value : ClinsertValue)
  deriving DecidableEq

/-- The locals of `get_clinserts`, and the history so far. -/
structure Progress where
  inserts : Inserts
  errors : Nat
  snmpFail : UInt32
  snmpSuccess : UInt32
  history : List Event
  deriving DecidableEq

def Progress.start : Progress where
  inserts := noInserts
  errors := 0
  snmpFail := 0
  snmpSuccess := 0
  history := []

/-- The value to insert for a sample, if the row has a previous value to
compare it with and the rate stays below the row's speed. -/
def valueOf (row : Queryrow) (sample : Sample) : Except Fault (Option ClinsertValue) :=
  if row.bits = 0 ∨ row.cachedTime ≠ 0 then
    -- A row stuck at zero passes; any other zero counts as no previous value.
    if row.cachedCounter > 0 ∨ (row.cachedCounter = 0 ∧ sample.counter = 0) then do
      let found ← calculateRate row.cachedTime row.cachedCounter sample.dtime sample.counter
        row.bits
      if found.rate.toUInt64 < row.speed then
        return some
          { id := row.id
            counter := found.counterDiff
            rate := found.rate
            dtime := sample.dtime
            currvalue := sample.counter }
      else
        return none
    else
      .ok none
  else
    .ok none

/-- `row->cached_time = dtime; row->cached_counter = counter;` -/
def Queryrow.cache (row : Queryrow) (sample : Sample) : Queryrow :=
  { row with cachedTime := sample.dtime, cachedCounter := sample.counter }

/-- Find or make the insert for a table and push a value to it. -/
def storeValue (inserts : Inserts) (table : Option CString) (value : ClinsertValue) :
    Except Fault Inserts := do
  let found ← clinsertForTable inserts table
  return pushAt found.1 found.2 value

/-- The branch of the loop body for a successful get. -/
def pollSuccess (number : Nat) (row : Queryrow) (sample : Sample) (progress : Progress) :
    Except Fault (Queryrow × Progress) := do
  let value ← valueOf row sample
  let progress := { progress with history := progress.history ++ [Event.got number sample] }
  let progress ← match value with
    | none => pure progress
    | some value => do
        let inserts ← storeValue progress.inserts row.table value
        pure
          { progress with
            inserts := inserts
            history := progress.history ++ [Event.pushed number row.table value] }
  return (row.cache sample, { progress with snmpSuccess := progress.snmpSuccess + 1 })

/-- The branch for a failed get. -/
def pollFailure (number : Nat) (progress : Progress) : Progress :=
  { progress with
    errors := progress.errors + 1
    snmpFail := progress.snmpFail + 1
    history := progress.history ++ [Event.failed number] }

/-- The loop body for one row. -/
def pollRow (number : Nat) (row : Queryrow) (reply : Reply) (progress : Progress) :
    Except Fault (Queryrow × Progress) :=
  match reply with
  | some sample => pollSuccess number row sample progress
  | none => .ok (row, pollFailure number progress)

/-- The loop over the rows from `number` on; it is left early when the errors
have reached the maximum. -/
def pollRows (maxErrors : UInt32) (replies : Nat → Reply) :
    Nat → List Queryrow → Progress → Except Fault (List Queryrow × Progress)
  | _, [], progress => .ok ([], progress)
  | number, row :: rows, progress => do
      let polled ← pollRow number row (replies number) progress
      if polled.2.errors ≥ maxErrors.toNat then
        return (polled.1 :: rows, polled.2)
      else
        let rest ← pollRows maxErrors replies (number + 1) rows polled.2
        return (polled.1 :: rest.1, rest.2)

/-- The returned inserts, the host with its new cache fields, the amounts added
to the statistics, and the history. -/
structure Polled where
  inserts : Inserts
  host : Queryhost
  snmpFail : UInt32
  snmpSuccess : UInt32
  history : List Event
  deriving DecidableEq

variable {Handle : Type}

def getClinserts (sessOpen : SessOpen Handle) (replies : Nat → Reply) (host : Queryhost)
    (maxErrorsPerHost : UInt32) : Except Fault Polled := do
  let session ← clsnmpSessionCreate sessOpen host.host host.community host.snmpver
  let polled ← match session with
    | some _ => pollRows maxErrorsPerHost replies 0 host.rows Progress.start
    | none => pure (host.rows, Progress.start)
  clsnmpSessionFree session
  pure
    { inserts := polled.2.inserts
      host := { host with rows := polled.1 }
      snmpFail := polled.2.snmpFail
      snmpSuccess := polled.2.snmpSuccess
      history := polled.2.history }

end ClusteredPoller.Poller
