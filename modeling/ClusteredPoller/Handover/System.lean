import ClusteredPoller.Database.ProcessQueue
import ClusteredPoller.Library.Transition
import ClusteredPoller.Threads.PollerRun

/-!
# Inserts between pollers and database threads

`process_queries` of `poller.c`, and `process_database_queue` and
`print_database_queue` of `database.c`, on any number of threads that share the
queue.  A call of the queue is one atomic step, and so is every other use of an
insert: the poller's read of `nvalues` behind its push, the build of a query,
and `clinsert_free`.

An insert is known by its number in the order of allocation; the queue stores
these numbers for pointers.  The history records what became of the inserts.
-/

namespace ClusteredPoller.Handover

open Database Poller Queue Threads

inductive Event (n m : Nat) where
  | pushed (poller : Fin n) (insert : Nat)
  /-- There was no room for the insert. -/
  | refused (poller : Fin n) (insert : Nat)
  | freedByPoller (poller : Fin n) (insert : Nat)
  /-- The poller read a field of an insert that had been freed. -/
  | staleRead (poller : Fin n) (insert : Nat)
  | popped (database : Fin m) (insert : Nat)
  | executed (database : Fin m) (insert : Nat) (succeeded : Bool)
  /-- The insert had no query. -/
  | skipped (database : Fin m) (insert : Nat)
  | freedByDatabase (database : Fin m) (insert : Nat)
  | committed (database : Fin m)
  deriving DecidableEq

namespace Event

variable {n m : Nat}

def push : Event n m → Option (Fin n × Nat)
  | .pushed poller insert => some (poller, insert)
  | _ => none

def refusal : Event n m → Option (Fin n × Nat)
  | .refused poller insert => some (poller, insert)
  | _ => none

def pollerFree : Event n m → Option (Fin n × Nat)
  | .freedByPoller poller insert => some (poller, insert)
  | _ => none

def pop : Event n m → Option Nat
  | .popped _ insert => some insert
  | _ => none

def free : Event n m → Option Nat
  | .freedByPoller _ insert | .freedByDatabase _ insert => some insert
  | _ => none

end Event

/-! ## Memory -/

/-- What the threads share. -/
structure Memory (n m : Nat) where
  queue : Clbuf Nat
  /-- All inserts that were allocated. -/
  inserts : List Clinsert
  history : List (Event n m)
  fault : Option Fault

namespace Memory

variable {n m : Nat}

def start (size : UInt32) (hsize : 0 < size.toNat) : Memory n m where
  queue := clbufCreate Nat size hsize
  inserts := []
  history := []
  fault := none

def record (memory : Memory n m) (event : Event n m) : Memory n m :=
  { memory with history := memory.history ++ [event] }

def fail (memory : Memory n m) (fault : Fault) : Memory n m := { memory with fault := some fault }

/-- The inserts that were pushed, in order, each with its poller. -/
def pushes (memory : Memory n m) : List (Fin n × Nat) := memory.history.filterMap Event.push

def refusals (memory : Memory n m) : List (Fin n × Nat) := memory.history.filterMap Event.refusal

def pollerFrees (memory : Memory n m) : List (Fin n × Nat) :=
  memory.history.filterMap Event.pollerFree

def popped (memory : Memory n m) : List Nat := memory.history.filterMap Event.pop

/-- The inserts that were freed, by whomever. -/
def freed (memory : Memory n m) : List Nat := memory.history.filterMap Event.free

/-- `insert->nvalues` -/
def nvalues (memory : Memory n m) (insert : Nat) : UInt32 :=
  match memory.inserts[insert]? with
  | some insert => UInt32.ofNat insert.values.length
  | none => 0

end Memory

/-! ## `process_queries` -/

/-- An insert in hand comes with those behind it in the list. -/
inductive QueriesPc where
  | idle
  | loopTest (rest : List Nat)
  | countFree (insert : Nat) (rest : List Nat)
  | push (insert : Nat) (rest : List Nat)
  /-- The poller reads `nvalues` of the insert that it has pushed. -/
  | readValues (insert : Nat) (rest : List Nat)
  | freeInsert (insert : Nat) (rest : List Nat)
  | countUsed
  /-- The totals are ready for the statistics. -/
  | update (depth : UInt32)
  deriving DecidableEq

/-- The locals of `process_queries`, and which inserts this call has pushed. -/
structure Queries where
  pc : QueriesPc
  nQueries : UInt32
  processedInserts : UInt32
  queuedQueries : UInt32
  queuedValues : UInt32
  queued : List Nat
  deriving DecidableEq

namespace Queries

def idle : Queries where
  pc := .idle
  nQueries := 0
  processedInserts := 0
  queuedQueries := 0
  queuedValues := 0
  queued := []

def goto (queries : Queries) (pc : QueriesPc) : Queries := { queries with pc := pc }

/-- The end of the loop body, with the insert in hand done. -/
def proceed (queries : Queries) (rest : List Nat) : Queries :=
  { queries with pc := .loopTest rest, processedInserts := queries.processedInserts + 1 }

def totals (queries : Queries) (depth : UInt32) : QueryTotals where
  queuedValues := queries.queuedValues
  queuedQueries := queries.queuedQueries
  droppedQueries := queries.nQueries - queries.processedInserts
  depth := depth

end Queries

section ProcessQueries

variable {n m : Nat}

/-- The beginning of `process_queries`, with a list of inserts that no other
thread knows. -/
def beginQueries (memory : Memory n m) (hostQueries : Inserts) :
    Except Fault (Memory n m × Queries) := do
  let nQueries ← clinsertCount hostQueries
  let inserts := (hostQueries.take nQueries.toNat).reduceOption
  return ({ memory with inserts := memory.inserts ++ inserts },
    { pc := .loopTest (List.range' memory.inserts.length inserts.length)
      nQueries := nQueries
      processedInserts := 0
      queuedQueries := 0
      queuedValues := 0
      queued := [] })

/-- A step of `process_queries`.  A read of a freed insert finds whatever there
is. -/
def queriesStep (i : Fin n) (garbage : UInt32) (memory : Memory n m) (queries : Queries) :
    Option (Memory n m × Queries) :=
  match queries.pc with
  | .idle => none
  | .loopTest [] => some (memory, queries.goto .countUsed)
  | .loopTest (insert :: rest) => some (memory, queries.goto (.countFree insert rest))
  | .countFree insert rest =>
      if clbufCountFree memory.queue > 0 then some (memory, queries.goto (.push insert rest))
      else some (memory.record (.refused i insert), queries.goto (.freeInsert insert rest))
  | .push insert rest =>
      match clbufPush memory.queue (some insert) with
      | (some _, queue) =>
          some ({ memory with queue := queue }.record (.pushed i insert),
            { queries with
              pc := .readValues insert rest
              queuedQueries := queries.queuedQueries + 1
              queued := queries.queued ++ [insert] })
      | (none, queue) =>
          some ({ memory with queue := queue }.record (.refused i insert),
            queries.goto (.freeInsert insert rest))
  | .readValues insert rest =>
      if insert ∈ memory.freed then
        some (memory.record (.staleRead i insert),
          { queries with queuedValues := queries.queuedValues + garbage }.proceed rest)
      else
        some (memory,
          { queries with
            queuedValues := queries.queuedValues + memory.nvalues insert }.proceed rest)
  | .freeInsert insert rest =>
      some (memory.record (.freedByPoller i insert), queries.proceed rest)
  | .countUsed => some (memory, queries.goto (.update (clbufCountUsed memory.queue)))
  | .update _ => some (memory, Queries.idle)

end ProcessQueries

/-! ## `process_database_queue` and `print_database_queue` -/

inductive DrainingPc where
  | idle
  | countUsed
  | pop
  | build (insert : Nat)
  /-- The query goes to `mysql_query` or to the log. -/
  | execute (insert : Nat) (query : CString)
  | freeInsert (insert : Nat)
  | commitTest
  | commitEnd
  deriving DecidableEq

structure Draining where
  pc : DrainingPc
  /-- `process_database_queue` runs, not `print_database_queue`. -/
  useDb : Bool
  queryCounter : UInt32
  deriving DecidableEq

namespace Draining

def idle : Draining where
  pc := .idle
  useDb := false
  queryCounter := 0

def begin (useDb : Bool) : Draining where
  pc := .countUsed
  useDb := useDb
  queryCounter := 0

def goto (draining : Draining) (pc : DrainingPc) : Draining := { draining with pc := pc }

/-- What follows the branch for a popped insert. -/
def afterInsert (draining : Draining) : Draining :=
  draining.goto (if draining.useDb then .commitTest else .countUsed)

/-- What follows the loop. -/
def afterLoop (draining : Draining) : Draining :=
  draining.goto (if draining.useDb then .commitEnd else .idle)

end Draining

section Drain

variable {n m : Nat}

/-- A step of either function.  Printing cannot fail. -/
def drainStep (config : Rtgconf) (j : Fin m) (succeeds : Bool) (memory : Memory n m)
    (draining : Draining) : Option (Memory n m × Draining) :=
  match draining.pc with
  | .idle => none
  | .countUsed =>
      some (memory,
        if clbufCountUsed memory.queue > 0 then draining.goto .pop else draining.afterLoop)
  | .pop =>
      match clbufPop memory.queue with
      | (some insert, queue) =>
          some ({ memory with queue := queue }.record (.popped j insert),
            draining.goto (.build insert))
      | (none, queue) => some ({ memory with queue := queue }, draining.afterInsert)
  | .build insert => (memory.inserts[insert]?).map fun values =>
      match buildInsertQuery values config with
      | .ok (some query) => (memory, draining.goto (.execute insert query))
      | .ok none => (memory.record (.skipped j insert), draining.goto (.freeInsert insert))
      | .error fault => (memory.fail fault, draining)
  | .execute insert _ =>
      let succeeded := !draining.useDb || succeeds
      some (memory.record (.executed j insert succeeded),
        { draining with
          pc := .freeInsert insert
          queryCounter :=
            if succeeded then draining.queryCounter + 1 else draining.queryCounter })
  | .freeInsert insert =>
      some (memory.record (.freedByDatabase j insert), draining.afterInsert)
  | .commitTest =>
      some
        (if draining.queryCounter > 0 ∧ draining.queryCounter % commitInterval = 0 then
            memory.record (.committed j)
          else memory,
          draining.goto .countUsed)
  | .commitEnd =>
      some (if draining.queryCounter > 0 then memory.record (.committed j) else memory,
        draining.goto .idle)

end Drain

/-! ## All threads together -/

structure State (n m : Nat) where
  memory : Memory n m
  pollers : Fin n → Queries
  databases : Fin m → Draining

inductive Label (n m : Nat) where
  /-- A poller calls `process_queries` with a list. -/
  | begin (i : Fin n) (hostQueries : Inserts)
  | poller (i : Fin n) (garbage : UInt32)
  /-- A database thread calls one of the two functions. -/
  | drain (j : Fin m) (useDb : Bool)
  | database (j : Fin m) (succeeds : Bool)

section System

variable {n m : Nat}

def State.start (size : UInt32) (hsize : 0 < size.toNat) : State n m where
  memory := Memory.start size hsize
  pollers _ := Queries.idle
  databases _ := Draining.idle

def step (config : Rtgconf) (label : Label n m) (s : State n m) : Option (State n m) :=
  if s.memory.fault.isSome then none
  else
    match label with
    | .begin i hostQueries =>
        if (s.pollers i).pc = .idle then
          match beginQueries s.memory hostQueries with
          | .ok (memory, queries) =>
              some { s with memory := memory, pollers := Function.update s.pollers i queries }
          | .error fault => some { s with memory := s.memory.fail fault }
        else none
    | .poller i garbage =>
        (queriesStep i garbage s.memory (s.pollers i)).map fun (memory, queries) =>
          { s with memory := memory, pollers := Function.update s.pollers i queries }
    | .drain j useDb =>
        if (s.databases j).pc = .idle then
          some { s with databases := Function.update s.databases j (Draining.begin useDb) }
        else none
    | .database j succeeds =>
        (drainStep config j succeeds s.memory (s.databases j)).map fun (memory, draining) =>
          { s with memory := memory, databases := Function.update s.databases j draining }

end System

end ClusteredPoller.Handover
