import ClusteredPoller.Library.Transition
import ClusteredPoller.Threads.MonitorRun
import ClusteredPoller.Threads.PollerRun

/-!
# The whole system

Threads take their atomic steps in any order, time passes between them, and a
signal may arrive at any time on any thread that has not returned.  While
handlers run on a thread, the thread itself stands still.

How often a thread calls `cllog` depends on the verbosity and on what there is to
report.  Here it may do so any number of times wherever the source has a call.
-/

namespace ClusteredPoller.Threads

open State

variable {n : Nat}

/-- A step of the topmost handler on a thread. -/
def handlerStep (thread : ThreadId n) (s : State n) : Option (State n) :=
  let proceed (s : State n) (frames : List HandlerPc) : State n :=
    { s with handlers := Function.update s.handlers thread frames }
  match s.handlers thread with
  | [] => none
  | .cllogLock signal :: frames =>
      (s.acquireCerr thread).map fun s => proceed s (.cllogUnlock signal :: frames)
  | .cllogUnlock signal :: frames => some (proceed s.releaseCerr (.requestStop signal :: frames))
  | .requestStop .hup :: frames =>
      some (proceed { s with threadStopRequested := true } (.lock :: frames))
  | .requestStop .term :: frames =>
      some (proceed { s with threadStopRequested := true } (.requestFullStop :: frames))
  | .requestFullStop :: frames =>
      some (proceed { s with fullStopRequested := true } (.lock :: frames))
  | .lock :: frames => (s.acquire thread).map fun s => proceed s (.broadcast :: frames)
  | .broadcast :: frames => some (proceed s.broadcast (.unlock :: frames))
  | .unlock :: frames => some (proceed s.release frames)

/-! ## Calls of `cllog` -/

/-- The source may call `cllog` in front of the step. -/
def HostStage.logs : HostStage → Bool
  | .openSession | .queryRow _ _ | .snmpLock _ | .queueInserts _ | .statsLock _ => true
  | _ => false

def PollerPc.logs : PollerPc → Bool
  | .inactiveLast | .activeLock => true
  | .processing _ _ stage => stage.logs
  | _ => false

def MonitorPc.logs : MonitorPc → Bool
  | .startLock | .ending _ => true
  | _ => false

def State.logs (s : State n) : ThreadId n → Bool
  | .poller i => (s.pollers i).pc.logs
  | .monitor => s.monitor.pc.logs
  | .other _ => true

/-- The thread's own code can go on outside of `cllog`. -/
def State.Ready (s : State n) (thread : ThreadId n) : Prop :=
  s.handlers thread = [] ∧ s.logging thread = .outside

instance (s : State n) (thread : ThreadId n) : Decidable (s.Ready thread) :=
  inferInstanceAs (Decidable (_ ∧ _))

def State.goLogging (s : State n) (thread : ThreadId n) (pc : LogPc) : State n :=
  { s with logging := Function.update s.logging thread pc }

/-- A step of the thread's own code in `cllog`. -/
def cllogStep (thread : ThreadId n) (s : State n) : Option (State n) :=
  if s.handlers thread = [] then
    match s.logging thread with
    | .outside => none
    | .lock => (s.acquireCerr thread).map fun s => s.goLogging thread .unlock
    | .unlock => some (s.releaseCerr.goLogging thread .outside)
  else none

/-! ## Steps -/

/-- The thread has not returned. -/
def State.alive (s : State n) : ThreadId n → Bool
  | .poller i => (s.pollers i).pc ≠ .returned
  | .monitor => s.monitor.pc ≠ .returned
  | .other _ => true

inductive Label (n : Nat) where
  /-- Time passes. -/
  | tick (ms : Nat)
  | poller (i : Fin n) (meets : Meeting)
  | monitor
  /-- The own code of a thread calls `cllog`. -/
  | callsCllog (thread : ThreadId n)
  /-- A thread's own code takes a step in `cllog`. -/
  | cllog (thread : ThreadId n)
  /-- The topmost handler on a thread takes a step. -/
  | handler (thread : ThreadId n)
  /-- A signal arrives on a thread. -/
  | signal (thread : ThreadId n) (signal : Signal)

def step (config : Rtgconf) (label : Label n) (s : State n) : Option (State n) :=
  if s.fault.isSome then none
  else
    match label with
    | .tick ms => some { s with clock := s.clock + ms }
    | .poller i meets =>
        if s.Ready (.poller i) then pollerStep config i meets s else none
    | .monitor => if s.Ready .monitor then monitorStep config s else none
    | .callsCllog thread =>
        if s.Ready thread ∧ s.logs thread = true then some (s.goLogging thread .lock) else none
    | .cllog thread => cllogStep thread s
    | .handler thread => handlerStep thread s
    | .signal thread signal =>
        if s.alive thread then
          some { s with
            handlers := Function.update s.handlers thread
              (.cllogLock signal :: s.handlers thread) }
        else none

end ClusteredPoller.Threads
