import ClusteredPoller.Threads.Moves

/-!
# What a step can do

Every step of a thread has one of a few effects on the hosts, the hand-out of
hosts and the count of active threads.  The invariants of the system are shown
for these effects, not for the single steps.
-/

namespace ClusteredPoller.Threads

open Poller State

variable {n : Nat}

/-! ## What a program counter says -/

/-- The host that is processed, and the round in which it was handed out. -/
def PollerPc.inWork : PollerPc → Option (Nat × Nat)
  | .processing host resets _ => some (host, resets)
  | _ => none

/-- The host that is processed, and the first row still to be queried. -/
def PollerPc.pending : PollerPc → Option (Nat × Nat)
  | .processing host _ .openSession => some (host, 0)
  | .processing host _ (.queryRow number _) => some (host, number)
  | _ => none

/-- The number of broadcasts that a waiting poller has seen. -/
def PollerPc.seen : PollerPc → Option Nat
  | .waiting seen => some seen
  | _ => none

/-- Between `thread_active` and the end of the loop over the hosts. -/
def PollerPc.inHostLoop : PollerPc → Bool
  | .activeUnlock | .hostTest | .nextHost | .processing _ _ _ => true
  | _ => false

/-- Counted in by `thread_active` and not yet counted out, in a run without a
stop request. -/
def PollerPc.countedAfter (iterations : UInt32) : PollerPc → Bool
  | .loopTest | .inactiveLock | .inactiveCount => iterations > 0
  | .activeUnlock | .hostTest | .nextHost | .processing _ _ _ | .roundEnd => true
  | _ => false

def PollerThread.counted (poller : PollerThread) : Bool :=
  poller.pc.countedAfter poller.iterations

/-- Two program counters that say the same, except that the rows of the host may
have been dealt with. -/
structure PollerPc.Like (iterations : UInt32) (pc pc' : PollerPc) : Prop where
  inWork : pc'.inWork = pc.inWork
  pending : pc'.pending = pc.pending ∨ pc'.pending = none
  inHostLoop : pc'.inHostLoop = pc.inHostLoop
  counted : pc'.countedAfter iterations = pc.countedAfter iterations

theorem PollerPc.inHostLoop_of_inWork {pc : PollerPc} {host : Nat × Nat}
    (hinWork : pc.inWork = some host) : pc.inHostLoop = true := by
  cases pc with
  | processing host round stage => rfl
  | _ => cases hinWork

theorem PollerPc.countedAfter_of_inHostLoop {pc : PollerPc} (hloop : pc.inHostLoop = true)
    (iterations : UInt32) : pc.countedAfter iterations = true := by
  cases pc with
  | activeUnlock | hostTest | nextHost | processing => rfl
  | _ => cases hloop

/-! ## Shared data -/

/-- The shared data without the lock, the statistics and the flags. -/
structure Shared where
  clock : Nat
  activeThreads : UInt32
  hosts : List Queryhost
  nextHost : Nat
  round : Nat
  fault : Option Fault
  handedOut : List Nat
  finished : List Nat

def State.shared (s : State n) : Shared where
  clock := s.clock
  activeThreads := s.activeThreads
  hosts := s.hosts
  nextHost := s.nextHost
  round := s.round
  fault := s.fault
  handedOut := s.handedOut
  finished := s.finished

/-- What belongs to the monitor, to the log and to the handlers. -/
structure Outside (n : Nat) where
  monitor : MonitorThread
  cerrLock : Option (ThreadId n)
  logging : ThreadId n → LogPc
  handlers : ThreadId n → List HandlerPc
  broadcasts : Nat
  threadStopRequested : Bool
  fullStopRequested : Bool

def State.outside (s : State n) : Outside n where
  monitor := s.monitor
  cerrLock := s.cerrLock
  logging := s.logging
  handlers := s.handlers
  broadcasts := s.broadcasts
  threadStopRequested := s.threadStopRequested
  fullStopRequested := s.fullStopRequested

/-- The effects of a step of a poller. -/
inductive PollerEffect (i : Fin n) (s next : State n) : Prop where
  /-- A step between two like program counters. -/
  | moves (pc : PollerPc) (like : PollerPc.Like (s.pollers i).iterations (s.pollers i).pc pc)
      (hshared : next.shared = s.shared)
      (hpollers : next.pollers = Function.update s.pollers i { s.pollers i with pc := pc })
      (hseen : pc.seen = none ∨ ((s.pollers i).pc = .condWait ∧ pc = .waiting s.broadcasts))
  /-- `active_threads--` -/
  | leaves (poller : PollerThread)
      (hpc : (s.pollers i).pc = .inactiveCount) (hcounted : (s.pollers i).counted = true)
      (hshared : next.shared = { s.shared with activeThreads := s.activeThreads - 1 })
      (hpollers : next.pollers = Function.update s.pollers i poller)
      (hafter : poller.pc = .inactiveLast)
  /-- `active_threads++` -/
  | enters (poller : PollerThread)
      (hpc : (s.pollers i).pc = .activeCount)
      (hshared : next.shared = { s.shared with activeThreads := s.activeThreads + 1 })
      (hpollers : next.pollers = Function.update s.pollers i poller)
      (hafter : poller.pc = .activeUnlock)
  /-- `rtgtargets_next` returns a host. -/
  | takes (poller : PollerThread)
      (hpc : (s.pollers i).pc = .nextHost) (hleft : s.nextHost < s.hosts.length)
      (hshared : next.shared =
        { s.shared with nextHost := s.nextHost + 1, handedOut := s.handedOut ++ [s.nextHost] })
      (hpollers : next.pollers = Function.update s.pollers i poller)
      (hafter : poller.pc = .processing s.nextHost s.round .openSession)
  /-- `rtgtargets_next` returns `NULL`, or the loop is left because of a stop. -/
  | leavesLoop (poller : PollerThread)
      (hpc : (s.pollers i).pc.inHostLoop = true) (hinWork : (s.pollers i).pc.inWork = none)
      (hwhy : s.hosts.length ≤ s.nextHost ∨ s.threadStopRequested = true)
      (hshared : next.shared = s.shared)
      (hpollers : next.pollers = Function.update s.pollers i poller)
      (hafter : poller.pc = .roundEnd)
  /-- A row is queried. -/
  | queries (poller : PollerThread) (host round number : Nat) (progress : Progress)
      (row row' : Queryrow) (reply : Reply) (progress' : Progress)
      (hpc : (s.pollers i).pc = .processing host round (.queryRow number progress))
      (hrow : s.row host number = some row)
      (hreply : ∀ sample, reply = some sample → sample.dtime = s.time)
      (hpoll : pollRow number row reply progress = .ok (row', progress'))
      (hshared : next.shared = (s.setRow host number row').shared)
      (hpollers : next.pollers = Function.update s.pollers i poller)
      (hafter : poller.pc.inWork = some (host, round))
      (hpending : poller.pc.pending = some (host, number + 1) ∨ poller.pc.pending = none)
  /-- `process_host` returns. -/
  | finishes (poller : PollerThread) (host round : Nat)
      (hpc : (s.pollers i).pc = .processing host round .statsUnlock)
      (hshared : next.shared = (s.finishHost host round).shared)
      (hpollers : next.pollers = Function.update s.pollers i poller)
      (hafter : poller.pc = .hostTest)
  /-- `iterations++` -/
  | endsRound (hpc : (s.pollers i).pc = .roundEnd) (hshared : next.shared = s.shared)
      (hpollers : next.pollers = Function.update s.pollers i
        { pc := .loopTest, iterations := (s.pollers i).iterations + 1 })
  /-- `poller_run` returns because of a stop. -/
  | returns (poller : PollerThread) (hstop : s.threadStopRequested = true)
      (hinWork : (s.pollers i).pc.inWork = none)
      (hshared : next.shared = s.shared)
      (hpollers : next.pollers = Function.update s.pollers i poller)
      (hafter : poller.pc = .returned)
  /-- The program ends in a fault. -/
  | fails (fault : Fault) (hshared : next.shared = { s.shared with fault := some fault })
      (hpollers : next.pollers = s.pollers)
      (hwhy : fault = .exit → ∃ host round number progress row reply,
        (s.pollers i).pc = .processing host round (.queryRow number progress) ∧
          s.row host number = some row ∧
          (∀ sample, reply = some sample → sample.dtime = s.time) ∧
          pollRow number row reply progress = .error .exit)

/-! ## The effects of the pollers' steps -/

section Poller

variable {config : Rtgconf} {i : Fin n} {meets : Meeting} {s next : State n}

/-- The program counter is replaced by a like one. -/
theorem effect_goto {t : State n} {before : PollerPc} (after : PollerPc)
    (hpc : (s.pollers i).pc = before)
    (like : PollerPc.Like (s.pollers i).iterations before after)
    (hseen : after.seen = none ∨ (before = .condWait ∧ after = .waiting s.broadcasts))
    (hshared : t.shared = s.shared) (hpollers : t.pollers = s.pollers)
    (houtside : t.outside = s.outside) :
    PollerEffect i s (t.goto i after) ∧ (t.goto i after).outside = s.outside := by
  refine ⟨.moves after (hpc ▸ like) hshared ?_ (hpc ▸ hseen), houtside⟩
  change Function.update t.pollers i { t.pollers i with pc := after } = _
  rw [hpollers]

theorem like_stage {iterations : UInt32} {host round : Nat} {stage stage' : HostStage}
    (hpending : (PollerPc.processing host round stage').pending =
        (PollerPc.processing host round stage).pending ∨
      (PollerPc.processing host round stage').pending = none) :
    PollerPc.Like iterations (.processing host round stage) (.processing host round stage') :=
  ⟨rfl, hpending, rfl, rfl⟩

theorem hostMove_effect {host round : Nat} {stage : HostStage}
    (hpc : (s.pollers i).pc = .processing host round stage)
    (move : HostMove i host round s stage next) :
    PollerEffect i s next ∧ next.outside = s.outside := by
  cases move with
  | opens => exact effect_goto _ hpc (like_stage (Or.inl rfl)) (Or.inl rfl) rfl rfl rfl
  | openFails fault hfault | queueFails _ fault hfault =>
      exact ⟨.fails fault rfl rfl fun hexit => absurd hexit hfault, rfl⟩
  | queries number progress progress' row row' reply stage hrow hreply hpoll hstage =>
      refine ⟨.queries _ host round number progress row row' reply progress' hpc hrow hreply hpoll
        rfl rfl rfl ?_, rfl⟩
      rcases hstage with rfl | rfl
      · exact Or.inl rfl
      · exact Or.inr rfl
  | queryFails number progress row reply fault hrow hreply hpoll =>
      refine ⟨.fails fault rfl rfl fun hexit => ?_, rfl⟩
      exact ⟨host, round, number, progress, row, reply, hpc, hrow, hreply, hexit ▸ hpoll⟩
  | endsRows | snmpLocks | snmpUpdates | snmpUnlocks | queues | statsLocks | statsUpdates =>
      exact effect_goto _ hpc (like_stage (Or.inr rfl)) (Or.inl rfl) rfl rfl rfl
  | statsUnlocks => exact ⟨.finishes _ host round hpc rfl rfl rfl, rfl⟩

theorem pollerStep_effect (hstep : pollerStep config i meets s = some next) :
    PollerEffect i s next ∧ next.outside = s.outside := by
  obtain ⟨pc, hpc, move⟩ := pollerStep_move hstep
  cases move with
  | loopStops hstop | stops hstop =>
      exact ⟨.returns _ hstop (by rw [hpc]; rfl) rfl rfl rfl, rfl⟩
  | inactiveCounts hcounted =>
      refine ⟨.leaves _ hpc ?_ rfl rfl rfl, rfl⟩
      rw [PollerThread.counted, hpc]
      exact decide_eq_true hcounted
  | inactiveSkips hnew =>
      exact effect_goto _ hpc ⟨rfl, Or.inl rfl, rfl, (decide_eq_false hnew).symm⟩ (Or.inl rfl)
        rfl rfl rfl
  | waits =>
      exact effect_goto _ hpc ⟨rfl, Or.inl rfl, rfl, rfl⟩ (Or.inr ⟨rfl, rfl⟩) rfl rfl rfl
  | activeCounts => exact ⟨.enters _ hpc rfl rfl rfl, rfl⟩
  | hostsStop hstop =>
      exact ⟨.leavesLoop _ (by rw [hpc]; rfl) (by rw [hpc]; rfl) (Or.inr hstop) rfl rfl rfl, rfl⟩
  | takes hleft => exact ⟨.takes _ hpc hleft rfl rfl rfl, rfl⟩
  | noneLeft hnone =>
      exact ⟨.leavesLoop _ (by rw [hpc]; rfl) (by rw [hpc]; rfl) (Or.inl hnone) rfl rfl rfl, rfl⟩
  | processes host round stage move => exact hostMove_effect hpc move
  | endsRound => exact ⟨.endsRound hpc rfl rfl, rfl⟩
  | _ => exact effect_goto _ hpc ⟨rfl, Or.inl rfl, rfl, rfl⟩ (Or.inl rfl) rfl rfl rfl

end Poller

/-! ## The effects of the monitor's steps -/

/-- In `end_iteration`. -/
def MonitorPc.inEnd : MonitorPc → Bool
  | .ending _ | .endLock | .endWait | .timedWaiting | .endRelock | .endUnlock => true
  | _ => false

inductive MonitorEffect (s next : State n) : Prop where
  /-- `rtgtargets_reset_next` -/
  | resets (hpc : s.monitor.pc = .startReset) (hshared : next.shared = s.resetNext.shared)
      (hafter : next.monitor.pc.inEnd = false)
  /-- `end_iteration` is called. -/
  | ends (hpc : s.monitor.pc = .endTest) (hactive : s.activeThreads = 0)
      (hstarted : s.monitor.thisIteration ≠ 0) (hshared : next.shared = s.shared)
  | moves (hshared : next.shared = s.shared)
      (hend : next.monitor.pc.inEnd = true → s.monitor.pc.inEnd = true)

section Monitor

variable {config : Rtgconf} {s next : State n}

/-- The monitor changes no poller, handler or stop flag, and nothing of the log. -/
structure MonitorStep (s next : State n) : Prop where
  effect : MonitorEffect s next
  pollers : next.pollers = s.pollers
  cerrLock : next.cerrLock = s.cerrLock
  logging : next.logging = s.logging
  handlers : next.handlers = s.handlers
  stop : next.threadStopRequested = s.threadStopRequested
  broadcasts : s.broadcasts ≤ next.broadcasts

theorem monitorStep_moves {before : MonitorPc} (hpc : s.monitor.pc = before)
    (hshared : next.shared = s.shared) (hpollers : next.pollers = s.pollers)
    (hcerr : next.cerrLock = s.cerrLock) (hlogging : next.logging = s.logging)
    (hhandlers : next.handlers = s.handlers)
    (hstop : next.threadStopRequested = s.threadStopRequested)
    (hbroadcasts : s.broadcasts ≤ next.broadcasts)
    (hend : next.monitor.pc.inEnd = true → before.inEnd = true) : MonitorStep s next :=
  ⟨.moves hshared (hpc ▸ hend), hpollers, hcerr, hlogging, hhandlers, hstop, hbroadcasts⟩

theorem monitorStep_effect (hstep : monitorStep config s = some next) : MonitorStep s next := by
  obtain ⟨pc, hpc, move⟩ := monitorStep_move hstep
  cases move with
  | broadcasts => exact monitorStep_moves hpc rfl rfl rfl rfl rfl rfl (Nat.le_succ _) nofun
  | resets => exact ⟨.resets hpc rfl rfl, rfl, rfl, rfl, rfl, rfl, Nat.le_refl _⟩
  | ends hactive hstarted =>
      exact ⟨.ends hpc hactive hstarted rfl, rfl, rfl, rfl, rfl, rfl, Nat.le_refl _⟩
  | acts action actions =>
      cases action with
      | readClock | readFinished | read | clear =>
          exact monitorStep_moves hpc rfl rfl rfl rfl rfl rfl (Nat.le_refl _) fun _ => rfl
  | early | late | endLocks | waits | wakes | relocks | endUnlocks =>
      exact monitorStep_moves hpc rfl rfl rfl rfl rfl rfl (Nat.le_refl _) fun _ => rfl
  | _ => exact monitorStep_moves hpc rfl rfl rfl rfl rfl rfl (Nat.le_refl _) nofun

end Monitor

/-! ## The effects of the system's steps -/

/-- A handler changes no poller, nor what pollers and monitor work on, nor where
the own code of a thread is in `cllog`. -/
structure HandlerStep (s next : State n) : Prop where
  shared : next.shared = s.shared
  pollers : next.pollers = s.pollers
  monitor : next.monitor = s.monitor
  logging : next.logging = s.logging

section System

variable {config : Rtgconf} {s next : State n}

theorem handlerStep_effect {thread : ThreadId n} (hstep : handlerStep thread s = some next) :
    HandlerStep s next := by
  obtain ⟨frames, -, move⟩ := handlerStep_move hstep
  cases move with
  | _ => exact ⟨rfl, rfl, rfl, rfl⟩

/-- The effects of a step of the system. -/
inductive StepEffect (config : Rtgconf) (s next : State n) : Label n → Prop where
  | ticks (ms : Nat) (hnext : next = { s with clock := s.clock + ms }) :
      StepEffect config s next (.tick ms)
  | polls (i : Fin n) (meets : Meeting) (hready : s.Ready (.poller i))
      (hstep : pollerStep config i meets s = some next)
      (effect : PollerEffect i s next) (houtside : next.outside = s.outside) :
      StepEffect config s next (.poller i meets)
  | monitors (hready : s.Ready .monitor) (hstep : monitorStep config s = some next)
      (effect : MonitorStep s next) : StepEffect config s next .monitor
  | calls (thread : ThreadId n) (hready : s.Ready thread) (hlogs : s.logs thread = true)
      (hnext : next = { s with logging := Function.update s.logging thread .lock }) :
      StepEffect config s next (.callsCllog thread)
  | logs (thread : ThreadId n) (hstep : cllogStep thread s = some next)
      (cerrLock : Option (ThreadId n)) (logging : ThreadId n → LogPc)
      (hnext : next = { s with cerrLock := cerrLock, logging := logging }) :
      StepEffect config s next (.cllog thread)
  | handles (thread : ThreadId n) (hstep : handlerStep thread s = some next)
      (effect : HandlerStep s next) : StepEffect config s next (.handler thread)
  | signals (thread : ThreadId n) (signal : Signal) (halive : s.alive thread = true)
      (hnext : next =
        { s with
          handlers := Function.update s.handlers thread
            (.cllogLock signal :: s.handlers thread) }) :
      StepEffect config s next (.signal thread signal)

theorem step_effect {label : Label n} (hstep : step config label s = some next) :
    s.fault = none ∧ StepEffect config s next label := by
  unfold step at hstep
  split at hstep
  · cases hstep
  · rename_i hfault
    refine ⟨Option.not_isSome_iff_eq_none.mp hfault, ?_⟩
    cases label with
    | tick ms =>
        cases hstep
        exact .ticks ms rfl
    | poller i meets =>
        dsimp only at hstep
        split at hstep
        · rename_i hready
          obtain ⟨effect, houtside⟩ := pollerStep_effect hstep
          exact .polls i meets hready hstep effect houtside
        · cases hstep
    | monitor =>
        dsimp only at hstep
        split at hstep
        · rename_i hready
          exact .monitors hready hstep (monitorStep_effect hstep)
        · cases hstep
    | callsCllog thread =>
        dsimp only at hstep
        split at hstep
        · rename_i hcalls
          cases hstep
          exact .calls thread hcalls.1 hcalls.2 rfl
        · cases hstep
    | cllog thread =>
        obtain ⟨-, pc, -, move⟩ := cllogStep_move hstep
        cases move with
        | locks | unlocks => exact .logs thread hstep _ _ rfl
    | handler thread => exact .handles thread hstep (handlerStep_effect hstep)
    | signal thread signal =>
        dsimp only at hstep
        split at hstep
        · rename_i halive
          cases hstep
          exact .signals thread signal halive rfl
        · cases hstep

end System

end ClusteredPoller.Threads
