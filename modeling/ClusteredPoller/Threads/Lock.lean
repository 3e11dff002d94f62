import ClusteredPoller.Library.Interrupts
import ClusteredPoller.Threads.Effects

/-!
# Who owns `global_lock` and `cerr_lock`

A thread runs its own code or, on top of it, the latest signal handler.  What
is interrupted stands still.  A lock is owned by the thread that is in a
critical section, if signals spare the owner; an interrupted owner would never
give the lock back, since the handler waits for both locks.
-/

namespace ClusteredPoller.Threads

open Library Poller State

variable {n : Nat} {config : Rtgconf} {s next : State n}

/-! ## Critical sections -/

/-- The steps left in a critical section, up to the one that gives the lock
back; none outside. -/
def PollerPc.critical : PollerPc → Nat
  | .inactiveCount => 3
  | .inactiveLast => 2
  | .condWait => 1
  | .inactiveUnlock => 1
  | .activeCount => 2
  | .activeUnlock => 1
  | .processing _ _ (.snmpUpdate _) => 2
  | .processing _ _ (.snmpUnlock _) => 1
  | .processing _ _ (.statsUpdate _) => 2
  | .processing _ _ .statsUnlock => 1
  | _ => 0

def MonitorPc.critical : MonitorPc → Nat
  | .startReset => 3
  | .startBroadcast => 2
  | .startUnlock => 1
  | .endWait => 1
  | .endUnlock => 1
  | _ => 0

def HandlerPc.critical : HandlerPc → Nat
  | .broadcast => 2
  | .unlock => 1
  | _ => 0

/-- The next step takes the lock. -/
def PollerPc.wantsLock : PollerPc → Bool
  | .inactiveLock | .relock | .activeLock => true
  | .processing _ _ (.snmpLock _) | .processing _ _ (.statsLock _) => true
  | _ => false

def MonitorPc.wantsLock : MonitorPc → Bool
  | .startLock | .endLock | .endRelock => true
  | _ => false

namespace State

/-- The critical steps of the thread's own code. -/
def ownCritical (s : State n) : ThreadId n → Nat
  | .poller i => (s.pollers i).pc.critical
  | .monitor => s.monitor.pc.critical
  | .other _ => 0

/-- `global_lock`, with who is in a critical section. -/
def lockView (s : State n) : Interrupts.View (ThreadId n) HandlerPc where
  lock := s.globalLock
  own := s.ownCritical
  frames := s.handlers

/-- The critical steps of what runs on the thread. -/
def critical (s : State n) (thread : ThreadId n) : Nat :=
  s.lockView.critical HandlerPc.critical thread

def ownWantsLock (s : State n) : ThreadId n → Bool
  | .poller i => (s.pollers i).pc.wantsLock
  | .monitor => s.monitor.pc.wantsLock
  | .other _ => false

/-- The thread's next step takes the lock. -/
def wantsLock (s : State n) (thread : ThreadId n) : Bool :=
  match s.handlers thread with
  | [] => s.ownWantsLock thread && s.logging thread = .outside
  | frame :: _ => frame = .lock

end State

theorem critical_of_idle {thread : ThreadId n} (hidle : s.handlers thread = []) :
    s.critical thread = s.ownCritical thread :=
  @Interrupts.critical_of_idle _ _ _ s.lockView thread hidle

theorem critical_of_handler {thread : ThreadId n} {frame : HandlerPc} {frames : List HandlerPc}
    (hframes : s.handlers thread = frame :: frames) : s.critical thread = frame.critical :=
  @Interrupts.critical_of_frame _ _ _ s.lockView thread _ _ hframes

theorem PollerPc.critical_of_wantsLock {pc : PollerPc} (hwants : pc.wantsLock = true) :
    pc.critical = 0 := by
  cases pc with
  | inactiveLock | relock | activeLock => rfl
  | processing host round stage =>
      cases stage with
      | snmpLock | statsLock => rfl
      | _ => cases hwants
  | _ => cases hwants

theorem MonitorPc.critical_of_wantsLock {pc : MonitorPc} (hwants : pc.wantsLock = true) :
    pc.critical = 0 := by
  cases pc with
  | startLock | endLock | endRelock => rfl
  | _ => cases hwants

/-- Who takes the lock next is in no critical section. -/
theorem critical_of_wantsLock {thread : ThreadId n} (hwants : s.wantsLock thread = true) :
    s.critical thread = 0 := by
  unfold State.wantsLock at hwants
  cases hframes : s.handlers thread with
  | nil =>
      rw [hframes] at hwants
      rw [critical_of_idle hframes]
      obtain ⟨hown, -⟩ := Bool.and_eq_true_iff.mp hwants
      cases thread with
      | poller i => exact PollerPc.critical_of_wantsLock hown
      | monitor => exact MonitorPc.critical_of_wantsLock hown
      | other number => rfl
  | cons frame frames =>
      rw [hframes] at hwants
      rw [critical_of_handler hframes, of_decide_eq_true hwants]
      rfl

/-! ## What a step does to the lock -/

/-- A step of the thread, whose critical steps it changes. -/
abbrev LockStep (thread : ThreadId n) (s next : State n) (before after : Nat) : Prop :=
  Interrupts.LockStep thread s.globalLock next.globalLock before after

@[simp]
theorem goto_pc (s : State n) (i : Fin n) (pc : PollerPc) : ((s.goto i pc).pollers i).pc = pc := by
  unfold goto setPoller
  dsimp only
  rw [Function.update_self]

section Poller

variable {i : Fin n} {meets : Meeting}

theorem lockStep_acquires {before : PollerPc} (after : PollerPc) (hpc : (s.pollers i).pc = before)
    (hbefore : before.critical = 0) (hafter : 0 < after.critical) (hfree : s.globalLock = none) :
    LockStep (.poller i) s ({ s with globalLock := some (.poller i) }.goto i after)
      (s.pollers i).pc.critical
      (({ s with globalLock := some (.poller i) }.goto i after).pollers i).pc.critical :=
  .acquires hfree rfl (by rw [hpc, hbefore]) (by rw [goto_pc]; exact hafter)

theorem lockStep_outside {t : State n} {before : PollerPc} (after : PollerPc)
    (hpc : (s.pollers i).pc = before) (hbefore : before.critical = 0) (hafter : after.critical = 0)
    (hlock : t.globalLock = s.globalLock) :
    LockStep (.poller i) s (t.goto i after) (s.pollers i).pc.critical
      ((t.goto i after).pollers i).pc.critical :=
  .outside hlock (by rw [hpc, hbefore]) (by rw [goto_pc, hafter])

theorem lockStep_inside {t : State n} {before : PollerPc} (after : PollerPc)
    (hpc : (s.pollers i).pc = before) (hbefore : before.critical = after.critical + 1)
    (hafter : 0 < after.critical) (hlock : t.globalLock = s.globalLock) :
    LockStep (.poller i) s (t.goto i after) (s.pollers i).pc.critical
      ((t.goto i after).pollers i).pc.critical :=
  .inside hlock (by rw [hpc, goto_pc, hbefore]) (by rw [goto_pc]; exact hafter)

theorem lockStep_releases {t : State n} {before : PollerPc} (after : PollerPc)
    (hpc : (s.pollers i).pc = before) (hbefore : before.critical = 1) (hafter : after.critical = 0)
    (hlock : t.globalLock = none) :
    LockStep (.poller i) s (t.goto i after) (s.pollers i).pc.critical
      ((t.goto i after).pollers i).pc.critical :=
  .releases hlock (by rw [hpc, hbefore]) (by rw [goto_pc, hafter])

/-- A fault leaves the lock and the program counter alone. -/
theorem lockStep_fail {before : PollerPc} (hpc : (s.pollers i).pc = before)
    (hbefore : before.critical = 0) (fault : Fault) :
    LockStep (.poller i) s (s.fail fault) (s.pollers i).pc.critical
      ((s.fail fault).pollers i).pc.critical :=
  .outside rfl (by rw [hpc, hbefore]) (hpc ▸ hbefore)

theorem hostMove_lockStep {host round : Nat} {stage : HostStage}
    (hpc : (s.pollers i).pc = .processing host round stage)
    (move : HostMove i host round s stage next) :
    LockStep (.poller i) s next (s.pollers i).pc.critical (next.pollers i).pc.critical := by
  cases move with
  | openFails fault | queryFails _ _ _ _ fault | queueFails _ fault =>
      exact lockStep_fail hpc rfl fault
  | queries _ _ _ _ _ _ _ _ _ _ hstage =>
      rcases hstage with rfl | rfl
      · exact lockStep_outside _ hpc rfl rfl rfl
      · exact lockStep_outside _ hpc rfl rfl rfl
  | opens | endsRows | queues => exact lockStep_outside _ hpc rfl rfl rfl
  | snmpLocks _ hfree | statsLocks _ hfree =>
      exact lockStep_acquires _ hpc rfl Nat.zero_lt_two hfree
  | snmpUpdates | statsUpdates => exact lockStep_inside _ hpc rfl Nat.zero_lt_one rfl
  | snmpUnlocks | statsUnlocks => exact lockStep_releases _ hpc rfl rfl rfl

theorem pollerStep_lockStep (hstep : pollerStep config i meets s = some next) :
    LockStep (.poller i) s next (s.pollers i).pc.critical (next.pollers i).pc.critical := by
  obtain ⟨pc, hpc, move⟩ := pollerStep_move hstep
  cases move with
  | inactiveLocks hfree =>
      exact lockStep_acquires _ hpc rfl (Nat.zero_lt_succ 2) hfree
  | relocks hfree => exact lockStep_acquires _ hpc rfl Nat.zero_lt_one hfree
  | activeLocks hfree => exact lockStep_acquires _ hpc rfl Nat.zero_lt_two hfree
  | inactiveCounts | inactiveSkips => exact lockStep_inside _ hpc rfl Nat.zero_lt_two rfl
  | inactiveLasts | inactiveGoes | activeCounts =>
      exact lockStep_inside _ hpc rfl Nat.zero_lt_one rfl
  | waits | inactiveUnlocks | activeUnlocks => exact lockStep_releases _ hpc rfl rfl rfl
  | loopStops | loops | wakes | stops | goesOn | hostsStop | hostsGo | takes | noneLeft =>
      exact lockStep_outside _ hpc rfl rfl rfl
  | processes host round stage move => exact hostMove_lockStep hpc move
  | endsRound =>
      refine .outside rfl (by rw [hpc]; rfl) ?_
      unfold setPoller
      dsimp only
      rw [Function.update_self]
      rfl

end Poller

section Monitor

theorem monitorStep_lockStep (hstep : monitorStep config s = some next) :
    LockStep .monitor s next s.monitor.pc.critical next.monitor.pc.critical := by
  obtain ⟨pc, hpc, move⟩ := monitorStep_move hstep
  rw [hpc]
  cases move with
  | startLocks hfree => exact .acquires hfree rfl rfl (Nat.zero_lt_succ 2)
  | endLocks hfree | relocks hfree => exact .acquires hfree rfl rfl Nat.zero_lt_one
  | resets => exact .inside rfl rfl Nat.zero_lt_two
  | broadcasts => exact .inside rfl rfl Nat.zero_lt_one
  | schedules | waits | endUnlocks => exact .releases rfl rfl rfl
  | acts action actions =>
      cases action with
      | readClock | readFinished | read | clear => exact .outside rfl rfl rfl
  | _ => exact .outside rfl rfl rfl

end Monitor

/-- A step of the topmost handler on a thread. -/
inductive FrameStep (thread : ThreadId n) (s next : State n) : Prop where
  /-- The handler goes on and has still to broadcast. -/
  | advances (frame after : HandlerPc) (frames : List HandlerPc)
      (hbefore : s.handlers thread = frame :: frames)
      (hafter : next.handlers = Function.update s.handlers thread (after :: frames))
      (hpending : after ≠ .unlock) (hbroadcasts : next.broadcasts = s.broadcasts)
      (lock : LockStep thread s next frame.critical after.critical)
  | broadcasts (frames : List HandlerPc) (hbefore : s.handlers thread = .broadcast :: frames)
      (hafter : next.handlers = Function.update s.handlers thread (.unlock :: frames))
      (hbroadcasts : next.broadcasts = s.broadcasts + 1) (lock : LockStep thread s next 2 1)
  /-- The handler returns to what it interrupted. -/
  | returns (frames : List HandlerPc) (hbefore : s.handlers thread = .unlock :: frames)
      (hafter : next.handlers = Function.update s.handlers thread frames)
      (hbroadcasts : next.broadcasts = s.broadcasts)
      (hstop : next.threadStopRequested = s.threadStopRequested)
      (lock : LockStep thread s next 1 0)

theorem handlerStep_frameStep {thread : ThreadId n} (hstep : handlerStep thread s = some next) :
    FrameStep thread s next := by
  obtain ⟨frames, hframes, move⟩ := handlerStep_move hstep
  cases move with
  | cllogLocks signal frames _ =>
      exact .advances _ (.cllogUnlock signal) frames hframes rfl (by simp) rfl
        (.outside rfl rfl rfl)
  | cllogUnlocks signal frames =>
      exact .advances _ (.requestStop signal) frames hframes rfl (by simp) rfl
        (.outside rfl rfl rfl)
  | hangsUp frames | stopsFully frames =>
      exact .advances _ .lock frames hframes rfl (by decide) rfl (.outside rfl rfl rfl)
  | terminates frames =>
      exact .advances _ .requestFullStop frames hframes rfl (by decide) rfl (.outside rfl rfl rfl)
  | locks frames hfree =>
      exact .advances _ .broadcast frames hframes rfl (by decide) rfl
        (.acquires hfree rfl rfl Nat.zero_lt_two)
  | broadcasts frames =>
      exact .broadcasts frames hframes rfl rfl (.inside rfl rfl Nat.zero_lt_one)
  | unlocks frames => exact .returns frames hframes rfl rfl rfl (.releases rfl rfl rfl)

/-! ## Ownership -/

/-- The lock is owned by the thread that is in a critical section, and what is
interrupted is in none. -/
def LockSound (s : State n) : Prop := Interrupts.Sound HandlerPc.critical s.lockView

theorem LockSound.owner (sound : LockSound s) (thread : ThreadId n) :
    s.globalLock = some thread ↔ 0 < s.critical thread :=
  Interrupts.Sound.owner sound thread

/-- No signal arrives on the thread that owns the lock. -/
def SparesOwner : Label n → State n → Prop
  | .signal thread _, s => s.globalLock ≠ some thread
  | _, _ => True

theorem lockSound_start (hosts : List Queryhost) (clock : Nat) (nextIteration : Int)
    (statistics : Statistics) :
    LockSound (State.start hosts clock nextIteration statistics : State n) := by
  refine ⟨?_, ?_, ?_⟩
  · intro thread
    cases thread <;> exact iff_of_false nofun (Nat.lt_irrefl 0)
  · intro thread hinterrupted
    exact absurd rfl hinterrupted
  · intro thread frame hframe
    exact absurd hframe List.not_mem_nil

/-- A thread makes a step of its own code. -/
theorem lockSound_own {thread : ThreadId n} (sound : LockSound s)
    (hidle : s.handlers thread = [])
    (lock : LockStep thread s next (s.ownCritical thread) (next.ownCritical thread))
    (hhandlers : next.handlers = s.handlers)
    (hothers : ∀ other, other ≠ thread → next.ownCritical other = s.ownCritical other) :
    LockSound next :=
  Interrupts.Sound.runs sound hidle lock hhandlers hothers

/-- Only the poller that makes the step moves. -/
theorem pollerEffect_others {i : Fin n} (effect : PollerEffect i s next) :
    ∃ poller, next.pollers = Function.update s.pollers i poller := by
  cases effect with
  | moves _ _ _ hpollers => exact ⟨_, hpollers⟩
  | leaves poller _ _ _ hpollers _ => exact ⟨poller, hpollers⟩
  | enters poller _ _ hpollers _ => exact ⟨poller, hpollers⟩
  | takes poller _ _ _ hpollers _ => exact ⟨poller, hpollers⟩
  | leavesLoop poller _ _ _ _ hpollers _ => exact ⟨poller, hpollers⟩
  | queries poller _ _ _ _ _ _ _ _ _ _ _ _ _ hpollers _ _ => exact ⟨poller, hpollers⟩
  | finishes poller _ _ _ _ hpollers _ => exact ⟨poller, hpollers⟩
  | endsRound _ _ hpollers => exact ⟨_, hpollers⟩
  | returns poller _ _ _ hpollers _ => exact ⟨poller, hpollers⟩
  | fails _ _ hpollers _ =>
      refine ⟨s.pollers i, ?_⟩
      rw [hpollers, Function.update_eq_self]

theorem lockSound_polls {i : Fin n} {meets : Meeting} (sound : LockSound s)
    (hidle : s.handlers (.poller i) = []) (hstep : pollerStep config i meets s = some next)
    (effect : PollerEffect i s next) (houtside : next.outside = s.outside) : LockSound next := by
  refine @lockSound_own n s next _ sound hidle (pollerStep_lockStep hstep)
    (congrArg Outside.handlers houtside) fun other hother => ?_
  obtain ⟨poller, hpollers⟩ := pollerEffect_others effect
  cases other with
  | poller j =>
      have hij : j ≠ i := fun hsame => hother (congrArg ThreadId.poller hsame)
      rw [State.ownCritical, State.ownCritical, hpollers, Function.update_of_ne hij]
  | monitor =>
      have hmonitor : next.monitor = s.monitor := congrArg Outside.monitor houtside
      rw [State.ownCritical, State.ownCritical, hmonitor]
  | other number => rfl

theorem lockSound_monitors (sound : LockSound s) (hidle : s.handlers .monitor = [])
    (hstep : monitorStep config s = some next) (effect : MonitorStep s next) :
    LockSound next := by
  refine @lockSound_own n s next _ sound hidle (monitorStep_lockStep hstep) effect.handlers
    fun other hother => ?_
  cases other with
  | poller j => rw [State.ownCritical, State.ownCritical, effect.pollers]
  | monitor => exact absurd rfl hother
  | other number => rfl

theorem handlerStep_ownCritical (effect : HandlerStep s next) :
    next.ownCritical = s.ownCritical := by
  funext thread
  cases thread with
  | poller j => rw [State.ownCritical, State.ownCritical, effect.pollers]
  | monitor => rw [State.ownCritical, State.ownCritical, effect.monitor]
  | other number => rfl

/-- What a handler's step does to the lock; a handler that returns leaves its
thread outside of any critical section. -/
theorem handlerStep_lockStep {thread : ThreadId n} (sound : LockSound s)
    (hstep : handlerStep thread s = some next) (effect : HandlerStep s next) :
    LockStep thread s next (s.critical thread) (next.critical thread) := by
  have hnext : ∀ {frames : List HandlerPc},
      next.handlers = Function.update s.handlers thread frames → next.handlers thread = frames := by
    intro frames hafter
    rw [hafter, Function.update_self]
  cases handlerStep_frameStep hstep with
  | advances frame after frames hbefore hafter _ _ lock =>
      rw [critical_of_handler hbefore, critical_of_handler (hnext hafter)]
      exact lock
  | broadcasts frames hbefore hafter _ lock =>
      rw [critical_of_handler hbefore, critical_of_handler (hnext hafter)]
      exact lock
  | returns frames hbefore hafter _ _ lock =>
      have hzero : next.critical thread = 0 :=
        Interrupts.Sound.critical_below sound hbefore (hnext hafter)
          (handlerStep_ownCritical effect)
      rw [critical_of_handler hbefore, hzero]
      exact lock

theorem lockSound_handles {thread : ThreadId n} (sound : LockSound s)
    (hstep : handlerStep thread s = some next) (effect : HandlerStep s next) :
    LockSound next := by
  have hown := handlerStep_ownCritical effect
  have hself : ∀ {frames : List HandlerPc},
      next.handlers = Function.update s.handlers thread frames → next.handlers thread = frames := by
    intro frames hafter
    rw [hafter, Function.update_self]
  have hothers : ∀ {frames : List HandlerPc},
      next.handlers = Function.update s.handlers thread frames →
        ∀ other, other ≠ thread → next.handlers other = s.handlers other := by
    intro frames hafter other hother
    rw [hafter, Function.update_of_ne hother]
  cases handlerStep_frameStep hstep with
  | advances frame after frames hbefore hafter _ _ lock =>
      exact Interrupts.Sound.advances sound hbefore (hself hafter) hown (hothers hafter) lock
  | broadcasts frames hbefore hafter _ lock =>
      exact Interrupts.Sound.advances sound hbefore (hself hafter) hown (hothers hafter) lock
  | returns frames hbefore hafter _ _ lock =>
      exact Interrupts.Sound.returns sound hbefore (hself hafter) hown (hothers hafter) lock

theorem lockSound_signals {thread : ThreadId n} {signal : Signal} (sound : LockSound s)
    (hspared : s.globalLock ≠ some thread)
    (hnext : next =
      { s with
        handlers := Function.update s.handlers thread
          (.cllogLock signal :: s.handlers thread) }) : LockSound next := by
  subst hnext
  exact Interrupts.Sound.interrupts sound hspared rfl rfl (Function.update_self _ _ _)
    (fun other hother => Function.update_of_ne hother _ _) rfl

theorem lockSound_step {label : Label n} (guarded : SparesOwner label s) (sound : LockSound s)
    (hstep : step config label s = some next) : LockSound next := by
  obtain ⟨_, effect⟩ := step_effect hstep
  cases effect with
  | ticks ms hnext | calls _ _ _ hnext | logs _ _ _ _ hnext =>
      subst hnext
      exact sound
  | polls i meets hready hpoll effect houtside =>
      exact lockSound_polls sound hready.1 hpoll effect houtside
  | monitors hready hmonitor effect => exact lockSound_monitors sound hready.1 hmonitor effect
  | handles thread hhandler effect => exact lockSound_handles sound hhandler effect
  | signals thread signal _ hnext => exact lockSound_signals sound guarded hnext

/-! ## The log -/

/-- The critical steps of `cllog`. -/
def HandlerPc.writing : HandlerPc → Nat
  | .cllogUnlock _ => 1
  | _ => 0

def LogPc.writing : LogPc → Nat
  | .unlock => 1
  | _ => 0

/-- The thread's next step takes `cerr_lock`. -/
def State.wantsCerrLock (s : State n) (thread : ThreadId n) : Bool :=
  match s.handlers thread with
  | [] => s.logging thread = .lock
  | .cllogLock _ :: _ => true
  | _ => false

/-- `cerr_lock`, with who is writing. -/
def State.cerrView (s : State n) : Interrupts.View (ThreadId n) HandlerPc where
  lock := s.cerrLock
  own thread := (s.logging thread).writing
  frames := s.handlers

/-- `cerr_lock` is owned by the thread that is writing, and what is interrupted is
not. -/
def CerrSound (s : State n) : Prop := Interrupts.Sound HandlerPc.writing s.cerrView

/-- No signal arrives on the thread that owns `cerr_lock`. -/
def SparesWriter : Label n → State n → Prop
  | .signal thread _, s => s.cerrLock ≠ some thread
  | _, _ => True

/-- The critical steps in `cllog` of what runs on the thread. -/
def State.writing (s : State n) (thread : ThreadId n) : Nat :=
  s.cerrView.critical HandlerPc.writing thread

theorem CerrSound.owner (sound : CerrSound s) (thread : ThreadId n) :
    s.cerrLock = some thread ↔ 0 < s.writing thread :=
  Interrupts.Sound.owner sound thread

theorem writing_of_idle {thread : ThreadId n} (hidle : s.handlers thread = []) :
    s.writing thread = (s.logging thread).writing :=
  @Interrupts.critical_of_idle _ _ _ s.cerrView thread hidle

theorem writing_of_handler {thread : ThreadId n} {frame : HandlerPc} {frames : List HandlerPc}
    (hframes : s.handlers thread = frame :: frames) : s.writing thread = frame.writing :=
  @Interrupts.critical_of_frame _ _ _ s.cerrView thread _ _ hframes

/-- Who takes `cerr_lock` next is not writing. -/
theorem writing_of_wantsCerrLock {thread : ThreadId n} (hwants : s.wantsCerrLock thread = true) :
    s.writing thread = 0 := by
  unfold State.wantsCerrLock at hwants
  cases hframes : s.handlers thread with
  | nil =>
      rw [hframes] at hwants
      rw [writing_of_idle hframes, of_decide_eq_true hwants]
      rfl
  | cons frame frames =>
      rw [hframes] at hwants
      rw [writing_of_handler hframes]
      cases frame with
      | cllogLock signal => rfl
      | _ => cases hwants

theorem cerrSound_start (hosts : List Queryhost) (clock : Nat) (nextIteration : Int)
    (statistics : Statistics) :
    CerrSound (State.start hosts clock nextIteration statistics : State n) := by
  refine ⟨?_, ?_, ?_⟩
  · intro thread
    exact iff_of_false nofun (Nat.lt_irrefl 0)
  · intro thread hinterrupted
    exact absurd rfl hinterrupted
  · intro thread frame hframe
    exact absurd hframe List.not_mem_nil

theorem cerrSound_congr (hcerr : next.cerrLock = s.cerrLock) (hlogging : next.logging = s.logging)
    (hhandlers : next.handlers = s.handlers) (sound : CerrSound s) : CerrSound next := by
  unfold CerrSound State.cerrView
  rw [hcerr, hlogging, hhandlers]
  exact sound

/-- The own code of a thread goes on with its call of `cllog`. -/
theorem cerrSound_own {thread : ThreadId n} {pc : LogPc} (sound : CerrSound s)
    (hidle : s.handlers thread = [])
    (lock : Interrupts.LockStep thread s.cerrLock next.cerrLock (s.logging thread).writing
      pc.writing) (hlogging : next.logging = Function.update s.logging thread pc)
    (hhandlers : next.handlers = s.handlers) : CerrSound next := by
  refine Interrupts.Sound.runs sound hidle ?_ hhandlers fun other hother => ?_
  · dsimp only [State.cerrView]
    rw [hlogging, Function.update_self]
    exact lock
  · dsimp only [State.cerrView]
    rw [hlogging, Function.update_of_ne hother]

theorem cerrSound_handles {thread : ThreadId n} (sound : CerrSound s)
    (hstep : handlerStep thread s = some next) : CerrSound next := by
  obtain ⟨frames, hframes, move⟩ := handlerStep_move hstep
  have hself : ∀ (s : State n) (after : List HandlerPc),
      Function.update s.handlers thread after thread = after := fun s after =>
    Function.update_self _ _ _
  have hothers : ∀ (s : State n) (after : List HandlerPc) (other : ThreadId n), other ≠ thread →
      Function.update s.handlers thread after other = s.handlers other :=
    fun s after other hother => Function.update_of_ne hother _ _
  cases move with
  | cllogLocks signal frames hfree =>
      exact Interrupts.Sound.advances sound hframes (hself s _) rfl (hothers s _)
        (.acquires hfree rfl rfl Nat.zero_lt_one)
  | cllogUnlocks signal frames =>
      exact Interrupts.Sound.advances sound hframes (hself s _) rfl (hothers s _)
        (.releases rfl rfl rfl)
  | unlocks frames =>
      exact Interrupts.Sound.returns sound hframes (hself s _) rfl (hothers s _)
        (.outside rfl rfl rfl)
  | hangsUp | terminates | stopsFully | locks | broadcasts =>
      exact Interrupts.Sound.advances sound hframes (hself s _) rfl (hothers s _)
        (.outside rfl rfl rfl)

theorem cerrSound_step {label : Label n} (guarded : SparesWriter label s) (sound : CerrSound s)
    (hstep : step config label s = some next) : CerrSound next := by
  obtain ⟨_, effect⟩ := step_effect hstep
  cases effect with
  | ticks ms hnext =>
      subst hnext
      exact sound
  | polls i meets _ _ _ houtside =>
      exact cerrSound_congr (congrArg Outside.cerrLock houtside)
        (congrArg Outside.logging houtside) (congrArg Outside.handlers houtside) sound
  | monitors _ _ effect =>
      exact cerrSound_congr effect.cerrLock effect.logging effect.handlers sound
  | calls thread hready _ hnext =>
      subst hnext
      exact cerrSound_own sound hready.1 (.outside rfl (by rw [hready.2]; rfl) rfl) rfl rfl
  | logs thread hlog _ _ _ =>
      obtain ⟨hidle, pc, hpc, move⟩ := cllogStep_move hlog
      cases move with
      | locks hfree =>
          exact @cerrSound_own n s _ thread .unlock sound hidle
            (.acquires hfree rfl (by rw [hpc]; rfl) Nat.zero_lt_one) rfl rfl
      | unlocks =>
          exact cerrSound_own sound hidle (.releases rfl (by rw [hpc]; rfl) rfl) rfl rfl
  | handles thread hhandler _ => exact cerrSound_handles sound hhandler
  | signals thread signal _ hnext =>
      subst hnext
      exact Interrupts.Sound.interrupts sound guarded rfl rfl (Function.update_self _ _ _)
        (fun other hother => Function.update_of_ne hother _ _) rfl

end ClusteredPoller.Threads
