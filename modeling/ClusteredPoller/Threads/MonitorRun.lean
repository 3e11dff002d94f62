import ClusteredPoller.Rtgconf
import ClusteredPoller.Threads.State

/-!
# The monitor thread

`monitor_run`, `start_iteration` and `end_iteration`, one atomic step at a
time.  A sleep takes a step of its own and any time; a wait with a time limit
may end at any time, by a broadcast, at its limit or for no reason.
-/

namespace ClusteredPoller.Threads

variable {n : Nat}

/-- The start of the next polling interval, within the range of `long long`. -/
def nextInterval (now : Int) (pollInterval : UInt32) : Int :=
  1000 * (((now.tdiv 1000).tdiv pollInterval.toNat) + 1) * pollInterval.toNat

namespace State

/-- `rtgtargets_reset_next`, and the start of a new record of the hosts. -/
def resetNext (s : State n) : State n :=
  { s with nextHost := 0, round := s.round + 1, handedOut := [], finished := [] }

/-- An unlocked step of `end_iteration`. -/
def endAction (s : State n) : EndAction → State n
  | .readClock =>
      { s with monitor := { s.monitor with toSleepMs := s.monitor.nextIteration - s.curms } }
  | .readFinished => s
  | .read field =>
      { s with
        monitor :=
          { s.monitor with report := s.monitor.report ++ [(field, s.statistics.read field)] } }
  | .clear field => { s with statistics := s.statistics.clear field }

/-- `this_iteration = 0` behind `end_iteration`. -/
def endIteration (s : State n) : State n :=
  { s with monitor := { s.monitor with pc := .loopTest, thisIteration := 0 } }

end State

open State

/-- The step of `monitor_run` at a program counter. -/
def monitorStepAt (config : Rtgconf) (s : State n) : MonitorPc → Option (State n)
  | .initialSleep => some (s.monitorGoto .loopTest)
  | .loopTest => some (s.monitorGoto (if s.threadStopRequested then .returned else .readClock))
  | .readClock => some { s with monitor := { s.monitor with pc := .startTest, now := s.curms } }
  | .startTest =>
      some (s.monitorGoto
        (if s.activeThreads = 0 ∧ s.monitor.now ≥ s.monitor.nextIteration then .startCount
          else .sleep))
  | .startCount =>
      some ({ s with
        statistics :=
          { s.statistics with iterations := s.statistics.iterations + 1 } }.monitorGoto .startLock)
  | .startLock => (s.acquire .monitor).map fun s => s.monitorGoto .startReset
  | .startReset => some (s.resetNext.monitorGoto .startBroadcast)
  | .startBroadcast => some (s.broadcast.monitorGoto .startUnlock)
  | .startUnlock =>
      some { s.release with
        monitor :=
          { s.monitor with
            pc := .sleep
            thisIteration := s.monitor.now
            nextIteration := nextInterval s.monitor.now config.interval } }
  | .sleep => some (s.monitorGoto .endTest)
  | .endTest =>
      if s.activeThreads = 0 ∧ s.monitor.thisIteration ≠ 0 then
        some { s with monitor := { s.monitor with pc := .ending endActions, report := [] } }
      else some (s.monitorGoto .loopTest)
  | .ending (action :: actions) => some ((s.endAction action).monitorGoto (.ending actions))
  | .ending [] =>
      some (if s.monitor.toSleepMs > 0 then s.monitorGoto .endLock else s.endIteration)
  | .endLock => (s.acquire .monitor).map fun s => s.monitorGoto .endWait
  | .endWait => some (s.release.monitorGoto .timedWaiting)
  | .timedWaiting => some (s.monitorGoto .endRelock)
  | .endRelock => (s.acquire .monitor).map fun s => s.monitorGoto .endUnlock
  | .endUnlock => some s.release.endIteration
  | .returned => none

def monitorStep (config : Rtgconf) (s : State n) : Option (State n) :=
  monitorStepAt config s s.monitor.pc

end ClusteredPoller.Threads
