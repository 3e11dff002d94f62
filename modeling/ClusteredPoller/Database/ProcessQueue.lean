import ClusteredPoller.Database.BuildInsertQuery
import ClusteredPoller.Queue.Clbuf

/-!
# Draining the queue

`process_database_queue` of `database.c`.  Other threads may call the queue in
front of each of its own calls, and every `mysql_query` may succeed or fail.
The drain keeps its history: which inserts it took, what became of their
queries, and when it committed.
-/

namespace ClusteredPoller.Database

open Library Poller Queue
open Library.BoundedFifo (Call)

def commitInterval : UInt32 := 100

inductive DrainEvent where
  /-- The query of a popped insert was handed to `mysql_query`. -/
  | queried (insert : Clinsert) (query : CString) (succeeded : Bool)
  /-- A popped insert had no query. -/
  | skipped (insert : Clinsert)
  | committed
  deriving DecidableEq

/-- What one call meets. -/
structure Surroundings where
  /-- Whether `mysql_query` succeeds, by the number of the call. -/
  succeeds : Nat → Bool
  /-- What other threads call in front of a queue call, by its number. -/
  others : Nat → List (Call Clinsert)

/-- The queue, the locals, the numbers of calls made, and the history. -/
structure Drain where
  queue : Clbuf Clinsert
  queryCounter : UInt32
  queries : Nat
  queueCalls : Nat
  history : List DrainEvent

namespace Drain

def start (queue : Clbuf Clinsert) : Drain where
  queue := queue
  queryCounter := 0
  queries := 0
  queueCalls := 0
  history := []

def record (drain : Drain) (event : DrainEvent) : Drain :=
  { drain with history := drain.history ++ [event] }

/-- The other threads' calls in front of the next queue call. -/
def awaitQueue (around : Surroundings) (drain : Drain) : Drain :=
  { drain with
    queue := (Machine.run Clbuf.perform drain.queue (around.others drain.queueCalls)).2
    queueCalls := drain.queueCalls + 1 }

/-- `mysql_query`, and the counter of the successful ones. -/
def mysqlQuery (around : Surroundings) (insert : Clinsert) (query : CString) (drain : Drain) :
    Drain :=
  let succeeded := around.succeeds drain.queries
  { drain.record (.queried insert query succeeded) with
    queries := drain.queries + 1
    queryCounter := if succeeded then drain.queryCounter + 1 else drain.queryCounter }

/-- The branch for a popped insert, which ends with the insert freed. -/
def handleInsert (around : Surroundings) (config : Rtgconf) (insert : Clinsert) (drain : Drain) :
    Except Fault Drain := do
  match ← buildInsertQuery insert config with
  | some query => return drain.mysqlQuery around insert query
  | none => return drain.record (.skipped insert)

/-- The branch under `if (insert)`. -/
def handlePopped (around : Surroundings) (config : Rtgconf) :
    Option Clinsert → Drain → Except Fault Drain
  | some insert, drain => drain.handleInsert around config insert
  | none, drain => .ok drain

/-- `mysql_commit` under a condition. -/
def commitIf (due : Bool) (drain : Drain) : Drain :=
  if due then drain.record .committed else drain

def commitAtInterval (drain : Drain) : Drain :=
  drain.commitIf (drain.queryCounter > 0 && drain.queryCounter % commitInterval = 0)

/-- The loop body. -/
def turn (around : Surroundings) (config : Rtgconf) (drain : Drain) : Except Fault Drain := do
  let waiting := drain.awaitQueue around
  let popped := clbufPop waiting.queue
  let handled ← handlePopped around config popped.1 { waiting with queue := popped.2 }
  return handled.commitAtInterval

/-- The loop, for at most a number of turns; `none` when it is not over yet. -/
def loop (around : Surroundings) (config : Rtgconf) : Nat → Drain → Except Fault (Option Drain)
  | 0, _ => .ok none
  | fuel + 1, drain =>
      let counted := drain.awaitQueue around
      if clbufCountUsed counted.queue > 0 then do
        let next ← counted.turn around config
        loop around config fuel next
      else
        .ok (some counted)

def commitAtEnd (drain : Drain) : Drain := drain.commitIf (drain.queryCounter > 0)

end Drain

/-- The value returned is the query counter of the final state. -/
def processDatabaseQueue (around : Surroundings) (config : Rtgconf) (fuel : Nat)
    (queue : Clbuf Clinsert) : Except Fault (Option Drain) := do
  let ended ← (Drain.start queue).loop around config fuel
  return ended.map Drain.commitAtEnd

end ClusteredPoller.Database
