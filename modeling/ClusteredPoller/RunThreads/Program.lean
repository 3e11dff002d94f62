import ClusteredPoller.Handover.System
import ClusteredPoller.Threads.System

/-!
# `run_threads`

The pollers, the monitor and the signal handlers together with the insert
queue, the loops of the database threads, and the main thread, which waits for
all of them before it frees the queue.  A poller that queues its inserts goes
through `process_queries` one step at a time.
-/

namespace ClusteredPoller.RunThreads

/-! ## Database threads -/

/-- The steps of `database_run`. -/
inductive DatabasePc where
  | loopTest
  | connect
  | ping
  /-- Calls one of the functions that drain the queue. -/
  | call
  | draining
  | sleep
  /-- Behind the loop. -/
  | closing
  | returned
  deriving DecidableEq

structure DatabaseThread where
  pc : DatabasePc
  connected : Bool
  deriving DecidableEq

/-- What a step of a database thread hears from MySQL. -/
structure Answers where
  connects : Bool := true
  pings : Bool := true
  succeeds : Bool := true

/-! ## The whole program -/

/-- `mt_threads_join` of each group, and then `clbuf_free`. -/
inductive MainPc where
  | joinDatabases
  | joinPollers
  | joinMonitor
  | freeQueue
  deriving DecidableEq

structure Program (n m : Nat) where
  threads : Threads.State n
  handover : Handover.State n m
  databases : Fin m → DatabaseThread
  main : MainPc

inductive Label (n m : Nat) where
  /-- A step that has nothing to do with the queue. -/
  | threads (label : Threads.Label n)
  /-- A step of `process_queries`. -/
  | queries (i : Fin n) (garbage : UInt32)
  | database (j : Fin m) (answers : Answers)
  | main

namespace Program

variable {n m : Nat}

def start (config : Rtgconf) (hqueue : 0 < config.maxDbQueue.toNat)
    (hosts : List Poller.Queryhost) (clock : Nat) (nextIteration : Int)
    (statistics : Threads.Statistics) : Program n m where
  threads := Threads.State.start hosts clock nextIteration statistics
  handover := Handover.State.start config.maxDbQueue hqueue
  databases _ := { pc := .loopTest, connected := false }
  main := .joinDatabases

/-- A fault has ended the program. -/
def faulted (s : Program n m) : Bool :=
  s.threads.fault.isSome || s.handover.memory.fault.isSome

def setDatabase (s : Program n m) (j : Fin m) (thread : DatabaseThread) : Program n m :=
  { s with databases := Function.update s.databases j thread }

def databaseGoto (s : Program n m) (j : Fin m) (pc : DatabasePc) : Program n m :=
  s.setDatabase j { s.databases j with pc := pc }

/-- A step of the calls that share the queue. -/
def handoverStep (config : Rtgconf) (label : Handover.Label n m) (s : Program n m) :
    Option (Program n m) :=
  (Handover.step config label s.handover).map fun handover => { s with handover := handover }

/-! ### Pollers -/

/-- The inserts that a poller is to queue. -/
def queueing (s : Program n m) (i : Fin n) : Option Poller.Inserts :=
  match (s.threads.pollers i).pc with
  | .processing _ _ (.queueInserts inserts) => some inserts
  | _ => none

/-- The poller that the label is about is to queue its inserts. -/
def atInserts (s : Program n m) : Threads.Label n → Bool
  | .poller i _ => (s.queueing i).isSome
  | _ => false

/-- The poller goes on to the statistics. -/
def finishQueries (s : Program n m) (i : Fin n) (depth : UInt32) : Program n m :=
  match (s.threads.pollers i).pc with
  | .processing host round _ =>
      { s with
        threads := s.threads.goto i
          (.processing host round (.statsLock ((s.handover.pollers i).totals depth))) }
  | _ => s

/-- A step of `process_queries` with a list. -/
def queriesStep (config : Rtgconf) (i : Fin n) (garbage : UInt32) (inserts : Poller.Inserts)
    (s : Program n m) : Option (Program n m) :=
  match (s.handover.pollers i).pc with
  | .idle => s.handoverStep config (.begin i inserts)
  | .update depth => (s.finishQueries i depth).handoverStep config (.poller i garbage)
  | _ => s.handoverStep config (.poller i garbage)

/-! ### Database threads -/

/-- The step of `database_run` at a program counter. -/
def databaseStepAt (config : Rtgconf) (j : Fin m) (answers : Answers) (s : Program n m) :
    DatabasePc → Option (Program n m)
  | .loopTest =>
      some (s.databaseGoto j
        (if s.threads.threadStopRequested then .closing
          else if !config.useDb then .call
          else if (s.databases j).connected then .ping
          else .connect))
  | .connect =>
      some (if answers.connects then s.setDatabase j { pc := .ping, connected := true }
        else s.databaseGoto j .sleep)
  | .ping => some (s.databaseGoto j (if answers.pings then .call else .sleep))
  | .call => (s.databaseGoto j .draining).handoverStep config (.drain j config.useDb)
  | .draining =>
      if (s.handover.databases j).pc = .idle then some (s.databaseGoto j .sleep)
      else s.handoverStep config (.database j answers.succeeds)
  | .sleep => some (s.databaseGoto j .loopTest)
  | .closing => some (s.databaseGoto j .returned)
  | .returned => none

def databaseStep (config : Rtgconf) (j : Fin m) (answers : Answers) (s : Program n m) :
    Option (Program n m) :=
  databaseStepAt config j answers s (s.databases j).pc

/-! ### The main thread -/

/-- A step of `run_threads`; the joins block. -/
def mainStep (s : Program n m) : Option (Program n m) :=
  match s.main with
  | .joinDatabases =>
      if ∀ j, (s.databases j).pc = .returned then some { s with main := .joinPollers } else none
  | .joinPollers =>
      if ∀ i, (s.threads.pollers i).pc = .returned then some { s with main := .joinMonitor }
      else none
  | .joinMonitor =>
      if s.threads.monitor.pc = .returned then some { s with main := .freeQueue } else none
  | .freeQueue => none

end Program

variable {n m : Nat}

/-- The main thread is the other thread with the number 0; the database threads
follow.  While handlers run on a thread, the thread itself stands still, and
before it goes on it returns from `cllog`. -/
def step (config : Rtgconf) (label : Label n m) (s : Program n m) : Option (Program n m) :=
  if s.faulted then none
  else
    match label with
    | .threads label =>
        if s.atInserts label then none
        else (Threads.step config label s.threads).map fun threads => { s with threads := threads }
    | .queries i garbage =>
        if s.threads.Ready (.poller i) then
          (s.queueing i).bind fun inserts => s.queriesStep config i garbage inserts
        else none
    | .database j answers =>
        if s.threads.Ready (.other (j + 1)) then s.databaseStep config j answers else none
    | .main => if s.threads.Ready (.other 0) then s.mainStep else none

end ClusteredPoller.RunThreads
