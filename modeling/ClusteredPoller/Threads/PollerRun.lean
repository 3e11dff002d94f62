import ClusteredPoller.Rtgconf
import ClusteredPoller.Threads.State

/-!
# Poller threads

`poller_run` and what it calls, one atomic step at a time.  The host's session,
the reply to each get and the answers of the insert queue are what a step meets
outside these threads.
-/

namespace ClusteredPoller.Threads

open Poller

/-- What a step of a poller meets; every step reads only what it needs. -/
structure Meeting where
  /-- `pthread_cond_wait` returns without a broadcast. -/
  spurious : Bool := false
  /-- `snmp_sess_open` opens a session. -/
  opened : Bool := true
  /-- The counter of the response, or no success. -/
  reply : Option UInt64 := none
  /-- The inserts, by number, that find room in the queue. -/
  accepts : Nat → Bool := fun _ => true
  /-- The queue's depth behind them. -/
  depth : UInt32 := 0

/-- The loop of `process_queries` from an insert on. -/
def pushInserts (accepts : Nat → Bool) : Nat → List Clinsert → QueryTotals → QueryTotals
  | _, [], totals => totals
  | number, insert :: inserts, totals =>
      pushInserts accepts (number + 1) inserts <|
        if accepts number then
          { totals with
            queuedQueries := totals.queuedQueries + 1
            queuedValues := totals.queuedValues + UInt32.ofNat insert.values.length }
        else totals

/-- `process_queries` up to its locked update. -/
def processQueries (meets : Meeting) (hostQueries : Inserts) : Except Fault QueryTotals := do
  let nQueries ← clinsertCount hostQueries
  let inserts := (hostQueries.take nQueries.toNat).reduceOption
  let processedInserts := nQueries
  return pushInserts meets.accepts 0 inserts
    { queuedValues := 0
      queuedQueries := 0
      droppedQueries := nQueries - processedInserts
      depth := meets.depth }

namespace Statistics

/-- The locked update of `get_clinserts`. -/
def addSnmp (statistics : Statistics) (progress : Progress) : Statistics :=
  { statistics with
    snmpFail := statistics.snmpFail + progress.snmpFail
    snmpSuccess := statistics.snmpSuccess + progress.snmpSuccess }

/-- The locked update of `process_queries`. -/
def addQueries (statistics : Statistics) (totals : QueryTotals) : Statistics :=
  { statistics with
    insertRows := statistics.insertRows + totals.queuedValues
    insertQueries := statistics.insertQueries + totals.queuedQueries
    droppedQueries := statistics.droppedQueries + totals.droppedQueries
    maxQueueDepth :=
      if statistics.maxQueueDepth > totals.depth then statistics.maxQueueDepth else totals.depth }

end Statistics

namespace State

variable {n : Nat}

def row (s : State n) (host number : Nat) : Option Queryrow :=
  (s.hosts[host]?).bind fun target => target.rows[number]?

def setRow (s : State n) (host number : Nat) (row : Queryrow) : State n :=
  { s with
    hosts := s.hosts.modify host fun target => { target with rows := target.rows.set number row } }

/-- The session of a host; without one, it is freed as `NULL`. -/
def openSession (s : State n) (meets : Meeting) (target : Queryhost) : Except Fault (State n) := do
  let session ← clsnmpSessionCreate (fun _ _ _ => if meets.opened then some () else none)
    target.host target.community target.snmpver
  match session with
  | some _ => return s
  | none => do
      clsnmpSessionFree session
      return s

/-- One turn of the loop over the rows, and the stage behind it.  The reads of the
caches and the two stores are one step, as they are where no other poller is at the
host. -/
def queryRow (s : State n) (config : Rtgconf) (meets : Meeting) (host number : Nat)
    (progress : Progress) : Except Fault (State n × HostStage) :=
  match s.row host number with
  | none => .ok (s, .snmpLock progress)
  | some row => do
      let reply := meets.reply.map fun counter => Sample.mk counter s.time
      let polled ← pollRow number row reply progress
      let stage :=
        if polled.2.errors ≥ config.maxErrorsPerHost.toNat then .snmpLock polled.2
        else HostStage.queryRow (number + 1) polled.2
      return (s.setRow host number polled.1, stage)

/-- The end of a `process_host`, recorded if its host was handed out since the
last reset. -/
def finishHost (s : State n) (host round : Nat) : State n :=
  { s with finished := if round = s.round then s.finished ++ [host] else s.finished }

/-- `rtgtargets_next`, for the poller that called it. -/
def takeHost (s : State n) (i : Fin n) : State n :=
  if s.nextHost < s.hosts.length then
    { s with nextHost := s.nextHost + 1, handedOut := s.handedOut ++ [s.nextHost] }.goto i
      (.processing s.nextHost s.round .openSession)
  else s.goto i .roundEnd

end State

open State

variable {n : Nat}

/-- A step of `process_host`. -/
def hostStep (config : Rtgconf) (i : Fin n) (meets : Meeting) (host round : Nat)
    (s : State n) : HostStage → Option (State n) :=
  let next (s : State n) (stage : HostStage) : State n := s.goto i (.processing host round stage)
  fun
  | .openSession => (s.hosts[host]?).map fun target =>
      match s.openSession meets target with
      | .ok opened => next opened (.queryRow 0 Progress.start)
      | .error fault => s.fail fault
  | .queryRow number progress => some <|
      match s.queryRow config meets host number progress with
      | .ok queried => next queried.1 queried.2
      | .error fault => s.fail fault
  | .snmpLock progress => (s.acquire (.poller i)).map fun s => next s (.snmpUpdate progress)
  | .snmpUpdate progress =>
      some (next { s with statistics := s.statistics.addSnmp progress }
        (.snmpUnlock progress.inserts))
  | .snmpUnlock inserts => some (next s.release (.queueInserts inserts))
  | .queueInserts inserts => some <|
      match processQueries meets inserts with
      | .ok totals => next s (.statsLock totals)
      | .error fault => s.fail fault
  | .statsLock totals => (s.acquire (.poller i)).map fun s => next s (.statsUpdate totals)
  | .statsUpdate totals =>
      some (next { s with statistics := s.statistics.addQueries totals } .statsUnlock)
  | .statsUnlock => some ((s.release.finishHost host round).goto i .hostTest)

/-- The step of `poller_run` at a program counter. -/
def pollerStepAt (config : Rtgconf) (i : Fin n) (meets : Meeting) (s : State n) :
    PollerPc → Option (State n)
  | .loopTest => some (s.goto i (if s.threadStopRequested then .returned else .inactiveLock))
  | .inactiveLock => (s.acquire (.poller i)).map fun s => s.goto i .inactiveCount
  | .inactiveCount =>
      -- Only a poller that is not in its first iteration has been counted.
      let activeThreads :=
        if (s.pollers i).iterations > 0 then s.activeThreads - 1 else s.activeThreads
      some ({ s with activeThreads := activeThreads }.goto i .inactiveLast)
  | .inactiveLast =>
      let statistics :=
        if s.activeThreads = 0 then { s.statistics with queryThreadsFinished := s.curms }
        else s.statistics
      some ({ s with statistics := statistics }.goto i .condWait)
  | .condWait => some (s.release.goto i (.waiting s.broadcasts))
  | .waiting seen =>
      if seen < s.broadcasts ∨ meets.spurious = true then some (s.goto i .relock) else none
  | .relock => (s.acquire (.poller i)).map fun s => s.goto i .inactiveUnlock
  | .inactiveUnlock => some (s.release.goto i .stopTest)
  | .stopTest => some (s.goto i (if s.threadStopRequested then .returned else .activeLock))
  | .activeLock => (s.acquire (.poller i)).map fun s => s.goto i .activeCount
  | .activeCount => some ({ s with activeThreads := s.activeThreads + 1 }.goto i .activeUnlock)
  | .activeUnlock => some (s.release.goto i .hostTest)
  | .hostTest => some (s.goto i (if s.threadStopRequested then .roundEnd else .nextHost))
  | .nextHost => some (s.takeHost i)
  | .processing host resets stage => hostStep config i meets host resets s stage
  | .roundEnd =>
      some (s.setPoller i { pc := .loopTest, iterations := (s.pollers i).iterations + 1 })
  | .returned => none

def pollerStep (config : Rtgconf) (i : Fin n) (meets : Meeting) (s : State n) :
    Option (State n) :=
  pollerStepAt config i meets s (s.pollers i).pc

end ClusteredPoller.Threads
