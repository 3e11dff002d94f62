import ClusteredPoller.Poller.GetClinserts
import Mathlib.Logic.Function.Basic

/-!
# The state of the running program

The pollers, the monitor, the signal handlers on any thread, and the globals
they share: the stop flags, `active_threads`, the statistics, `global_lock`
with `global_cond`, `cerr_lock`, and the targets.  A program counter names the
next atomic step of its thread.  The clock is in milliseconds.

Three fields only record the history of the run: how often `next_host` was
reset, and which hosts were handed out and finished since then.
-/

namespace ClusteredPoller.Threads

open Poller

/-- The main thread and the database threads only matter as threads on which a
signal handler may run. -/
inductive ThreadId (n : Nat) where
  | poller (i : Fin n)
  | monitor
  | other (number : Nat)
  deriving DecidableEq

/-! ## Statistics -/

structure Statistics where
  insertRows : UInt32
  insertQueries : UInt32
  droppedQueries : UInt32
  iterations : UInt32
  snmpFail : UInt32
  snmpSuccess : UInt32
  maxQueueDepth : UInt32
  queryThreadsFinished : Int
  deriving DecidableEq

inductive StatisticsField where
  | insertRows
  | insertQueries
  | droppedQueries
  | iterations
  | snmpFail
  | snmpSuccess
  | maxQueueDepth
  deriving DecidableEq

namespace Statistics

/-- The initial value of `statistics`. -/
def initial : Statistics where
  insertRows := 0
  insertQueries := 0
  droppedQueries := 0
  iterations := 0
  snmpFail := 0
  snmpSuccess := 0
  maxQueueDepth := 0
  queryThreadsFinished := 0

def read (statistics : Statistics) : StatisticsField → UInt32
  | .insertRows => statistics.insertRows
  | .insertQueries => statistics.insertQueries
  | .droppedQueries => statistics.droppedQueries
  | .iterations => statistics.iterations
  | .snmpFail => statistics.snmpFail
  | .snmpSuccess => statistics.snmpSuccess
  | .maxQueueDepth => statistics.maxQueueDepth

def clear (statistics : Statistics) : StatisticsField → Statistics
  | .insertRows => { statistics with insertRows := 0 }
  | .insertQueries => { statistics with insertQueries := 0 }
  | .droppedQueries => { statistics with droppedQueries := 0 }
  | .iterations => { statistics with iterations := 0 }
  | .snmpFail => { statistics with snmpFail := 0 }
  | .snmpSuccess => { statistics with snmpSuccess := 0 }
  | .maxQueueDepth => { statistics with maxQueueDepth := 0 }

end Statistics

/-- What `process_queries` adds to the statistics. -/
structure QueryTotals where
  queuedValues : UInt32
  queuedQueries : UInt32
  droppedQueries : UInt32
  depth : UInt32
  deriving DecidableEq

/-! ## Pollers -/

/-- The steps of `process_host`. -/
inductive HostStage where
  /-- `clsnmp_session_create` -/
  | openSession
  /-- The loop over the rows, at a row. -/
  | queryRow (number : Nat) (progress : Progress)
  /-- The locked update at the end of `get_clinserts`. -/
  | snmpLock (progress : Progress)
  | snmpUpdate (progress : Progress)
  | snmpUnlock (inserts : Inserts)
  /-- `process_queries` up to its locked update. -/
  | queueInserts (inserts : Inserts)
  | statsLock (totals : QueryTotals)
  | statsUpdate (totals : QueryTotals)
  | statsUnlock
  deriving DecidableEq

/-- The steps of `poller_run`. -/
inductive PollerPc where
  | loopTest
  /-- `thread_inactive` -/
  | inactiveLock
  | inactiveCount
  | inactiveLast
  | condWait
  /-- In `pthread_cond_wait`, entered after a number of broadcasts. -/
  | waiting (seen : Nat)
  | relock
  | inactiveUnlock
  | stopTest
  /-- `thread_active` -/
  | activeLock
  | activeCount
  | activeUnlock
  | hostTest
  | nextHost
  /-- `process_host`, for a host handed out after a number of resets. -/
  | processing (host round : Nat) (stage : HostStage)
  | roundEnd
  | returned
  deriving DecidableEq

structure PollerThread where
  pc : PollerPc
  iterations : UInt32
  deriving DecidableEq

/-! ## Monitor -/

/-- The unlocked steps of `end_iteration`. -/
inductive EndAction where
  | readClock
  | readFinished
  | read (field : StatisticsField)
  | clear (field : StatisticsField)
  deriving DecidableEq

/-- What `end_iteration` reads for its reports, in order, and then clears. -/
def endActions : List EndAction :=
  [.readClock, .readFinished, .read .droppedQueries, .read .snmpFail, .read .iterations,
    .read .snmpSuccess, .read .snmpFail, .read .snmpSuccess, .read .snmpFail, .read .snmpFail,
    .read .insertQueries, .read .droppedQueries, .read .insertQueries, .read .droppedQueries,
    .read .droppedQueries, .read .maxQueueDepth, .clear .insertRows, .clear .insertQueries,
    .clear .snmpFail, .clear .snmpSuccess, .clear .droppedQueries, .clear .maxQueueDepth]

/-- The steps of `monitor_run`. -/
inductive MonitorPc where
  | initialSleep
  | loopTest
  | readClock
  | startTest
  /-- `start_iteration` -/
  | startCount
  | startLock
  | startReset
  | startBroadcast
  | startUnlock
  | sleep
  | endTest
  /-- `end_iteration`, with the unlocked steps that are left. -/
  | ending (actions : List EndAction)
  | endLock
  | endWait
  | timedWaiting
  | endRelock
  | endUnlock
  | returned
  deriving DecidableEq

/-- The monitor's locals, and what its last report read. -/
structure MonitorThread where
  pc : MonitorPc
  now : Int
  thisIteration : Int
  nextIteration : Int
  toSleepMs : Int
  report : List (StatisticsField × UInt32)
  deriving DecidableEq

/-! ## Signal handlers -/

inductive Signal where
  | hup
  | term
  deriving DecidableEq

/-- The steps of `sighup_handler` and `sigterm_handler`, which write to the log
first. -/
inductive HandlerPc where
  | cllogLock (signal : Signal)
  | cllogUnlock (signal : Signal)
  | requestStop (signal : Signal)
  | requestFullStop
  | lock
  | broadcast
  | unlock
  deriving DecidableEq

/-! ## The log -/

/-- Where the own code of a thread is in `cllog`: outside, about to lock
`cerr_lock`, or about to unlock it. -/
inductive LogPc where
  | outside
  | lock
  | unlock
  deriving DecidableEq

/-! ## The whole state -/

structure State (n : Nat) where
  clock : Nat
  threadStopRequested : Bool
  fullStopRequested : Bool
  activeThreads : UInt32
  statistics : Statistics
  /-- The owner of `global_lock`. -/
  globalLock : Option (ThreadId n)
  /-- The number of broadcasts on `global_cond`. -/
  broadcasts : Nat
  hosts : List Queryhost
  nextHost : Nat
  pollers : Fin n → PollerThread
  monitor : MonitorThread
  /-- The owner of `cerr_lock`. -/
  cerrLock : Option (ThreadId n)
  logging : ThreadId n → LogPc
  /-- The handlers that run on a thread, the latest one first. -/
  handlers : ThreadId n → List HandlerPc
  /-- The fault that ended the program. -/
  fault : Option Fault
  round : Nat
  handedOut : List Nat
  finished : List Nat

namespace State

variable {n : Nat}

/-- `curms()` -/
def curms (s : State n) : Int := s.clock

/-- `time(NULL)` -/
def time (s : State n) : Int := (s.clock / 1000 : Nat)

def setPoller (s : State n) (i : Fin n) (poller : PollerThread) : State n :=
  { s with pollers := Function.update s.pollers i poller }

def goto (s : State n) (i : Fin n) (pc : PollerPc) : State n :=
  s.setPoller i { s.pollers i with pc := pc }

def monitorGoto (s : State n) (pc : MonitorPc) : State n :=
  { s with monitor := { s.monitor with pc := pc } }

/-- `pthread_mutex_lock(&global_lock)`, which blocks while the lock is taken. -/
def acquire (s : State n) (thread : ThreadId n) : Option (State n) :=
  if s.globalLock = none then some { s with globalLock := some thread } else none

def release (s : State n) : State n := { s with globalLock := none }

/-- `pthread_mutex_lock(&cerr_lock)` -/
def acquireCerr (s : State n) (thread : ThreadId n) : Option (State n) :=
  if s.cerrLock = none then some { s with cerrLock := some thread } else none

def releaseCerr (s : State n) : State n := { s with cerrLock := none }

def broadcast (s : State n) : State n := { s with broadcasts := s.broadcasts + 1 }

def fail (s : State n) (fault : Fault) : State n := { s with fault := some fault }

/-- What `run_threads` starts from.  The hosts, their caches, the clock and the
monitor's next iteration come from before; the counters of the statistics that
it does not clear do, too. -/
def start (hosts : List Queryhost) (clock : Nat) (nextIteration : Int)
    (statistics : Statistics) : State n where
  clock := clock
  threadStopRequested := false
  fullStopRequested := false
  activeThreads := 0
  statistics := { statistics with insertRows := 0, insertQueries := 0, iterations := 0 }
  globalLock := none
  broadcasts := 0
  hosts := hosts
  nextHost := 0
  pollers _ := { pc := .loopTest, iterations := 0 }
  monitor :=
    { pc := .initialSleep
      now := 0
      thisIteration := 0
      nextIteration := nextIteration
      toSleepMs := 0
      report := [] }
  cerrLock := none
  logging _ := .outside
  handlers _ := []
  fault := none
  round := 0
  handedOut := []
  finished := []

end State

end ClusteredPoller.Threads
