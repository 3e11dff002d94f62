import ClusteredPoller.RtgconfFile
import ClusteredPoller.RunThreads.Program
import ClusteredPoller.Targets.OldStyle

/-!
# The loop of `main`

The whole process, from the first test of the stop flag to its end.  Between
two calls of `run_threads` the main thread is alone: it reads the two files,
takes the caches over from the targets before, and creates the threads, one
after the other.  Signals arrive throughout.
-/

namespace ClusteredPoller.Process

open Poller Targets Threads

/-- `MIN_QUEUE_LENGTH` -/
def minQueueLength : Nat := 100

/-- Command line values that `main` lets pass. -/
structure Settings extends Options where
  queueLength : minQueueLength ≤ maxDbQueue.toNat
  dbThreads : 1 ≤ numDbthreads.toNat

/-- What `main` finds when it reads a file. -/
structure Input where
  file : File
  /-- The memory that `rtgconf_create` is given. -/
  memory : Rtgconf
  unspecified : Unspecified

/-- Where the main thread stands while it is alone. -/
inductive MainPc where
  | loopTest
  | readConf
  | readTargets (config : Rtgconf)
  | copyCache (config : Rtgconf) (targets : Rtgtargets)
  /-- At the beginning of `run_threads`. -/
  | runThreads (config : Rtgconf) (targets : Rtgtargets)
  /-- `thread_stop_requested` has been cleared. -/
  | createThreads (config : Rtgconf) (targets : Rtgtargets)

/-- Where the main thread works with the files. -/
def MainPc.reads : MainPc → Bool
  | .readConf | .readTargets _ | .copyCache _ _ => true
  | _ => false

/-- The main thread alone, and the globals. -/
structure Alone where
  pc : MainPc
  clock : Nat
  threadStopRequested : Bool
  fullStopRequested : Bool
  logging : LogPc
  /-- The handlers that run on the main thread, the latest one first. -/
  handlers : List HandlerPc
  statistics : Statistics
  /-- `next_iteration` of `run_threads`, which is static. -/
  nextIteration : Int
  oldTargets : Option Rtgtargets

inductive Ending where
  /-- `return 0` -/
  | success
  /-- `exit(EXIT_FAILURE)` -/
  | failure
  | fault (fault : Fault)
  deriving DecidableEq

inductive State where
  | alone (alone : Alone)
  /-- In `run_threads`, with a configuration and targets that it was called
  with, and with a number of threads that have been created. -/
  | running (config : Rtgconf) (targets : Rtgtargets) (created : Nat)
      (program : RunThreads.Program config.threads.toNat config.numDbthreads.toNat)
  | ended (ending : Ending) (alone : Alone)

inductive Label where
  /-- Time passes while the main thread is alone. -/
  | tick (ms : Nat)
  | signal (signal : Signal)
  /-- The own code of the main thread calls `cllog`, or takes a step there. -/
  | callsCllog
  | cllog
  /-- The topmost handler on the main thread takes a step. -/
  | handler
  | main (input : Input)
  /-- A step of the threads of `run_threads`. -/
  | threads {n m : Nat} (label : RunThreads.Label n m)

/-! ## The main thread alone -/

/-- The handler has taken `global_lock`. -/
def hasLock : HandlerPc → Bool
  | .broadcast | .unlock => true
  | _ => false

/-- The handler has taken `cerr_lock`. -/
def hasCerrLock : HandlerPc → Bool
  | .cllogUnlock _ => true
  | _ => false

namespace Alone

def goto (a : Alone) (pc : MainPc) : Alone := { a with pc := pc }

def start (clock : Nat) : Alone where
  pc := .loopTest
  clock := clock
  threadStopRequested := false
  fullStopRequested := false
  logging := .outside
  handlers := []
  statistics := Statistics.initial
  nextIteration := 0
  oldTargets := none

/-- The main thread's own code can go on outside of `cllog`. -/
def Ready (a : Alone) : Prop := a.handlers = [] ∧ a.logging = .outside

instance (a : Alone) : Decidable a.Ready := inferInstanceAs (Decidable (_ ∧ _))

/-- A step of the main thread's own code in `cllog`. -/
def cllogStep (a : Alone) : Option Alone :=
  if a.handlers = [] then
    match a.logging with
    | .outside => none
    | .lock => some { a with logging := .unlock }
    | .unlock => some { a with logging := .outside }
  else none

/-- A step of the topmost handler.  A handler below may have a lock, and what they
all interrupt may have `cerr_lock`. -/
def handlerStep (a : Alone) : Option Alone :=
  match a.handlers with
  | [] => none
  | .cllogLock signal :: frames =>
      if a.logging = .unlock ∨ frames.any hasCerrLock = true then none
      else some { a with handlers := .cllogUnlock signal :: frames }
  | .cllogUnlock signal :: frames => some { a with handlers := .requestStop signal :: frames }
  | .requestStop .hup :: frames =>
      some { a with threadStopRequested := true, handlers := .lock :: frames }
  | .requestStop .term :: frames =>
      some { a with threadStopRequested := true, handlers := .requestFullStop :: frames }
  | .requestFullStop :: frames =>
      some { a with fullStopRequested := true, handlers := .lock :: frames }
  | .lock :: frames =>
      if frames.any hasLock then none else some { a with handlers := .broadcast :: frames }
  | .broadcast :: frames => some { a with handlers := .unlock :: frames }
  | .unlock :: frames => some { a with handlers := frames }

/-- A step of the topmost handler, by what it does to the handlers and the flags. -/
inductive HandlerMove (a : Alone) : Alone → Prop where
  /-- The handler goes on, and leaves the flags alone. -/
  | advances (frame after : HandlerPc) (frames : List HandlerPc)
      (hframes : a.handlers = frame :: frames) (hbefore : frame ≠ .requestFullStop)
      (hafter : after ≠ .requestFullStop) :
      HandlerMove a { a with handlers := after :: frames }
  | stops (signal : Signal) (after : HandlerPc) (frames : List HandlerPc)
      (hframes : a.handlers = .requestStop signal :: frames) :
      HandlerMove a { a with threadStopRequested := true, handlers := after :: frames }
  | stopsFully (frames : List HandlerPc) (hframes : a.handlers = .requestFullStop :: frames) :
      HandlerMove a { a with fullStopRequested := true, handlers := .lock :: frames }
  | returns (frames : List HandlerPc) (hframes : a.handlers = .unlock :: frames) :
      HandlerMove a { a with handlers := frames }

theorem handlerStep_move {a next : Alone} (hstep : a.handlerStep = some next) :
    HandlerMove a next := by
  unfold handlerStep at hstep
  split at hstep
  · cases hstep
  · rename_i signal frames hframes
    split at hstep
    · cases hstep
    · cases hstep
      exact .advances _ (.cllogUnlock signal) frames hframes (by simp) (by simp)
  · rename_i signal frames hframes
    cases hstep
    exact .advances _ (.requestStop signal) frames hframes (by simp) (by simp)
  · rename_i frames hframes
    cases hstep
    exact .stops .hup .lock frames hframes
  · rename_i frames hframes
    cases hstep
    exact .stops .term .requestFullStop frames hframes
  · rename_i frames hframes
    cases hstep
    exact .stopsFully frames hframes
  · rename_i frames hframes
    split at hstep
    · cases hstep
    · cases hstep
      exact .advances _ .broadcast frames hframes (by simp) (by simp)
  · rename_i frames hframes
    cases hstep
    exact .advances _ .unlock frames hframes (by simp) (by simp)
  · rename_i frames hframes
    cases hstep
    exact .returns frames hframes

/-- Handlers change nothing of what the main thread works with. -/
theorem handlerStep_main {a next : Alone} (hstep : a.handlerStep = some next) :
    next.pc = a.pc ∧ next.oldTargets = a.oldTargets := by
  cases handlerStep_move hstep with
  | _ => exact ⟨rfl, rfl⟩

/-- Neither does `cllog`. -/
theorem cllogStep_main {a next : Alone} (hstep : a.cllogStep = some next) :
    ∃ logging, next = { a with logging := logging } := by
  unfold cllogStep at hstep
  split at hstep
  · split at hstep
    · cases hstep
    · cases hstep
      exact ⟨_, rfl⟩
    · cases hstep
      exact ⟨_, rfl⟩
  · cases hstep

/-- The threads before they are created. -/
def startThreads {n m : Nat} (a : Alone) (config : Rtgconf) (hqueue : 0 < config.maxDbQueue.toNat)
    (hosts : List Queryhost) : RunThreads.Program n m :=
  let program := RunThreads.Program.start config hqueue hosts a.clock a.nextIteration a.statistics
  { program with
    threads :=
      { program.threads with
        threadStopRequested := a.threadStopRequested
        fullStopRequested := a.fullStopRequested } }

end Alone

theorem patch_queue (settings : Settings) (config : Rtgconf) :
    0 < (config.patch settings.toOptions).maxDbQueue.toNat :=
  Nat.lt_of_lt_of_le (by decide : 0 < minQueueLength) settings.queueLength

/-- A step of `main` outside `run_threads`. -/
def mainStep (settings : Settings) (input : Input) (a : Alone) : State :=
  match a.pc with
  | .loopTest =>
      if a.fullStopRequested then .ended .success a else .alone (a.goto .readConf)
  | .readConf =>
      match rtgconfCreate input.memory input.file with
      | .error fault => .ended (.fault fault) a
      | .ok none => .ended .failure a
      | .ok (some config) =>
          if rtgconfVerify config then .alone (a.goto (.readTargets config))
          else .ended .failure a
  | .readTargets config =>
      match rtgtargetsParse input.unspecified input.file (config.patch settings.toOptions) with
      | .error fault => .ended (.fault fault) a
      | .ok targets =>
          if targets.ntargets = 0 then .ended .failure a
          else .alone (a.goto (.copyCache config targets))
  | .copyCache config targets =>
      match a.oldTargets with
      | none => .alone (a.goto (.runThreads config targets))
      | some old =>
          match rtgtargetsCopyCache targets old with
          | .error fault => .ended (.fault fault) a
          | .ok targets =>
              .alone { a.goto (.runThreads config targets) with oldTargets := none }
  | .runThreads config targets =>
      .alone { a.goto (.createThreads config targets) with threadStopRequested := false }
  | .createThreads config targets =>
      .running (config.patch settings.toOptions) targets 0
        (a.startThreads (config.patch settings.toOptions) (patch_queue settings config)
          targets.hosts)

/-! ## `run_threads` -/

section Running

variable {n m : Nat}

/-- The thread has been created and has not returned.  The pollers are created
first, and the monitor last. -/
def alive (created : Nat) (program : RunThreads.Program n m) : ThreadId n → Bool
  | .poller i => i < created && program.threads.alive (.poller i)
  | .monitor => n + m < created && program.threads.alive .monitor
  | .other 0 => true
  | .other (j + 1) =>
      n + j < created &&
        if hj : j < m then (program.databases ⟨j, hj⟩).pc ≠ .returned else false

/-- The thread that takes the step, or on which the signal arrives. -/
def actor : RunThreads.Label n m → Option (ThreadId n)
  | .threads (.tick _) => none
  | .threads (.poller i _) | .queries i _ => some (.poller i)
  | .threads .monitor => some .monitor
  | .threads (.callsCllog thread) | .threads (.cllog thread) => some thread
  | .threads (.handler thread) | .threads (.signal thread _) => some thread
  | .database j _ => some (.other (j + 1))
  | .main => some (.other 0)

/-- The main thread joins the others when it has created them all. -/
def admits (created : Nat) (program : RunThreads.Program n m) : RunThreads.Label n m → Bool
  | .main => n + m < created
  | label => (actor label).all (alive created program)

/-- `run_threads` returns to the loop, with its threads joined. -/
def leave (targets : Rtgtargets) (program : RunThreads.Program n m) : Alone where
  pc := .loopTest
  clock := program.threads.clock
  threadStopRequested := program.threads.threadStopRequested
  fullStopRequested := program.threads.fullStopRequested
  logging := .outside
  handlers := []
  statistics := program.threads.statistics
  nextIteration := program.threads.monitor.nextIteration
  oldTargets := some { targets with hosts := program.threads.hosts }

/-- The main thread can go on. -/
def MainReady (program : RunThreads.Program n m) : Prop :=
  program.threads.Ready (.other 0) ∧ program.faulted = false

instance (program : RunThreads.Program n m) : Decidable (MainReady program) :=
  inferInstanceAs (Decidable (_ ∧ _))

/-- The main thread has joined all threads. -/
def Joined (program : RunThreads.Program n m) : Prop :=
  program.main = .freeQueue ∧ MainReady program

instance (program : RunThreads.Program n m) : Decidable (Joined program) :=
  inferInstanceAs (Decidable (_ ∧ _))

def runningStep (config : Rtgconf) (created : Nat) (label : RunThreads.Label n m)
    (program : RunThreads.Program n m) : Option (RunThreads.Program n m) :=
  if admits created program label then RunThreads.step config label program else none

end Running

/-! ## The process -/

/-- The label, for the numbers of threads that there are. -/
def Label.resize {n m n' m' : Nat} (hsize : n = n' ∧ m = m') (label : RunThreads.Label n m) :
    RunThreads.Label n' m' :=
  hsize.2 ▸ hsize.1 ▸ label

def step (settings : Settings) : Label → State → Option State
  | .tick ms, .alone a => some (.alone { a with clock := a.clock + ms })
  | .signal signal, .alone a =>
      some (.alone { a with handlers := .cllogLock signal :: a.handlers })
  | .callsCllog, .alone a => if a.Ready then some (.alone { a with logging := .lock }) else none
  | .cllog, .alone a => a.cllogStep.map .alone
  | .handler, .alone a => a.handlerStep.map .alone
  | .main input, .alone a => if a.Ready then some (mainStep settings input a) else none
  | .main _, .running config targets created program =>
      if created ≤ config.threads.toNat + config.numDbthreads.toNat then
        if MainReady program then some (.running config targets (created + 1) program) else none
      else if Joined program then some (.alone (leave targets program))
      else none
  | @Label.threads n m label, .running config targets created program =>
      if hsize : n = config.threads.toNat ∧ m = config.numDbthreads.toNat then
        (runningStep config created (Label.resize hsize label) program).map
          (.running config targets created)
      else none
  | _, _ => none

/-! ## What a step can do -/

/-- How a step of `main` outside `run_threads` goes. -/
inductive MainMove (settings : Settings) (input : Input) (a : Alone) : State → Prop where
  | stops (hpc : a.pc = .loopTest) (hfull : a.fullStopRequested = true) :
      MainMove settings input a (.ended .success a)
  /-- A file that is missing or wrong ends the process. -/
  | givesUp (ending : Ending) (hpc : a.pc.reads = true) (hending : ending ≠ .success) :
      MainMove settings input a (.ended ending a)
  | goesOn (hpc : a.pc = .loopTest) (hfull : a.fullStopRequested = false) :
      MainMove settings input a (.alone (a.goto .readConf))
  | readsConf (config : Rtgconf) (hpc : a.pc = .readConf) :
      MainMove settings input a (.alone (a.goto (.readTargets config)))
  | readsTargets (config : Rtgconf) (targets : Rtgtargets) (hpc : a.pc = .readTargets config)
      (hparse : rtgtargetsParse input.unspecified input.file (config.patch settings.toOptions) =
        .ok targets) :
      MainMove settings input a (.alone (a.goto (.copyCache config targets)))
  | startsAfresh (config : Rtgconf) (targets : Rtgtargets) (hpc : a.pc = .copyCache config targets)
      (hold : a.oldTargets = none) :
      MainMove settings input a (.alone (a.goto (.runThreads config targets)))
  | copiesCache (config : Rtgconf) (targets old copied : Rtgtargets)
      (hpc : a.pc = .copyCache config targets) (hold : a.oldTargets = some old)
      (hcopy : rtgtargetsCopyCache targets old = .ok copied) :
      MainMove settings input a
        (.alone { a.goto (.runThreads config copied) with oldTargets := none })
  | clears (config : Rtgconf) (targets : Rtgtargets) (hpc : a.pc = .runThreads config targets) :
      MainMove settings input a
        (.alone { a.goto (.createThreads config targets) with threadStopRequested := false })
  | begins (config : Rtgconf) (targets : Rtgtargets) (hpc : a.pc = .createThreads config targets) :
      MainMove settings input a
        (.running (config.patch settings.toOptions) targets 0
          (a.startThreads (config.patch settings.toOptions) (patch_queue settings config)
            targets.hosts))

theorem mainStep_move (settings : Settings) (input : Input) (a : Alone) :
    MainMove settings input a (mainStep settings input a) := by
  rw [mainStep]
  cases hpc : a.pc with
  | loopTest =>
      dsimp only
      split
      · rename_i hfull
        exact .stops hpc hfull
      · rename_i hfull
        exact .goesOn hpc (Bool.eq_false_of_not_eq_true hfull)
  | readConf =>
      have hreads : a.pc.reads = true := by rw [hpc]; rfl
      dsimp only
      split
      · exact .givesUp _ hreads (by simp)
      · exact .givesUp _ hreads (by simp)
      · split
        · exact .readsConf _ hpc
        · exact .givesUp _ hreads (by simp)
  | readTargets config =>
      have hreads : a.pc.reads = true := by rw [hpc]; rfl
      dsimp only
      split
      · exact .givesUp _ hreads (by simp)
      · rename_i targets hparse
        split
        · exact .givesUp _ hreads (by simp)
        · exact .readsTargets config targets hpc hparse
  | copyCache config targets =>
      have hreads : a.pc.reads = true := by rw [hpc]; rfl
      dsimp only
      split
      · rename_i hold
        exact .startsAfresh config targets hpc hold
      · rename_i old hold
        split
        · exact .givesUp _ hreads (by simp)
        · rename_i copied hcopy
          exact .copiesCache config targets old copied hpc hold hcopy
  | runThreads config targets => exact .clears config targets hpc
  | createThreads config targets => exact .begins config targets hpc

/-- From where the process steps, and to which state. -/
inductive Move (settings : Settings) : Label → State → State → Prop where
  | ticks (ms : Nat) (a : Alone) :
      Move settings (.tick ms) (.alone a) (.alone { a with clock := a.clock + ms })
  | signals (signal : Signal) (a : Alone) :
      Move settings (.signal signal) (.alone a)
        (.alone { a with handlers := .cllogLock signal :: a.handlers })
  | callsCllog (a : Alone) :
      Move settings .callsCllog (.alone a) (.alone { a with logging := .lock })
  | logs (a : Alone) (logging : LogPc) :
      Move settings .cllog (.alone a) (.alone { a with logging := logging })
  | handles (a b : Alone) (hstep : a.handlerStep = some b) :
      Move settings .handler (.alone a) (.alone b)
  | main (input : Input) (a : Alone) (hready : a.Ready) :
      Move settings (.main input) (.alone a) (mainStep settings input a)
  | creates (input : Input) (config : Rtgconf) (targets : Rtgtargets) (created : Nat)
      (program : RunThreads.Program config.threads.toNat config.numDbthreads.toNat)
      (hleft : created ≤ config.threads.toNat + config.numDbthreads.toNat) :
      Move settings (.main input) (.running config targets created program)
        (.running config targets (created + 1) program)
  | leaves (input : Input) (config : Rtgconf) (targets : Rtgtargets) (created : Nat)
      (program : RunThreads.Program config.threads.toNat config.numDbthreads.toNat)
      (hjoined : Joined program)
      (hall : config.threads.toNat + config.numDbthreads.toNat < created) :
      Move settings (.main input) (.running config targets created program)
        (.alone (leave targets program))
  | threads (config : Rtgconf) (targets : Rtgtargets) (created : Nat)
      (program next : RunThreads.Program config.threads.toNat config.numDbthreads.toNat)
      (label : RunThreads.Label config.threads.toNat config.numDbthreads.toNat)
      (hstep : RunThreads.step config label program = some next) :
      Move settings (.threads label) (.running config targets created program)
        (.running config targets created next)

theorem step_move {settings : Settings} {label : Label} {state next : State}
    (hstep : step settings label state = some next) : Move settings label state next := by
  cases state with
  | alone a =>
      cases label with
      | tick ms =>
          cases hstep
          exact .ticks ms a
      | signal signal =>
          cases hstep
          exact .signals signal a
      | callsCllog =>
          rw [step] at hstep
          split at hstep
          · cases hstep
            exact .callsCllog a
          · cases hstep
      | cllog =>
          obtain ⟨b, hcllog, rfl⟩ := Option.map_eq_some_iff.mp hstep
          obtain ⟨logging, rfl⟩ := Alone.cllogStep_main hcllog
          exact .logs a logging
      | handler =>
          obtain ⟨b, hhandler, rfl⟩ := Option.map_eq_some_iff.mp hstep
          exact .handles a b hhandler
      | main input =>
          rw [step] at hstep
          split at hstep
          · rename_i hready
            cases hstep
            exact .main input a hready
          · cases hstep
      | threads label => cases hstep
  | running config targets created program =>
      cases label with
      | main input =>
          rw [step] at hstep
          split at hstep
          · rename_i hleft
            split at hstep
            · cases hstep
              exact .creates input config targets created program hleft
            · cases hstep
          · rename_i hall
            split at hstep
            · rename_i hjoined
              cases hstep
              exact .leaves input config targets created program hjoined (not_le.mp hall)
            · cases hstep
      | @threads n m label =>
          unfold step at hstep
          dsimp only at hstep
          split at hstep
          · rename_i hsize
            obtain ⟨rfl, rfl⟩ := hsize
            obtain ⟨after, hrunning, rfl⟩ := Option.map_eq_some_iff.mp hstep
            unfold runningStep at hrunning
            split at hrunning
            · exact .threads config targets created program after label hrunning
            · cases hrunning
          · cases hstep
      | tick | signal | callsCllog | cllog | handler => cases hstep
  | ended ending a => cases label <;> cases hstep

end ClusteredPoller.Process
