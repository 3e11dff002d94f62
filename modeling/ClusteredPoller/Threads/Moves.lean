import ClusteredPoller.Library.Outcome
import ClusteredPoller.Poller.SessionFailure
import ClusteredPoller.Threads.System

/-!
# The steps of the threads

From where a poller, the monitor or a handler steps, and to which state: one case
for each way that a step can go.  What holds of all steps is shown by these
cases, and not by the step functions.
-/

namespace ClusteredPoller.Threads

open Library.Outcome Poller State

variable {n : Nat}

/-- The state that the lock step leaves. -/
theorem acquire_eq_some {s next : State n} {thread : ThreadId n} :
    s.acquire thread = some next ↔
      s.globalLock = none ∧ next = { s with globalLock := some thread } := by
  unfold acquire
  split
  · rename_i hfree
    rw [Option.some.injEq, eq_comm]
    exact ⟨fun heq => ⟨hfree, heq⟩, And.right⟩
  · rename_i htaken
    exact iff_of_false (fun impossible => nomatch impossible) fun both => htaken both.1

theorem map_acquire_eq_some {s next : State n} {thread : ThreadId n} {goOn : State n → State n}
    (hstep : (s.acquire thread).map goOn = some next) :
    s.globalLock = none ∧ next = goOn { s with globalLock := some thread } := by
  obtain ⟨locked, hacquire, rfl⟩ := Option.map_eq_some_iff.mp hstep
  obtain ⟨hfree, rfl⟩ := acquire_eq_some.mp hacquire
  exact ⟨hfree, rfl⟩

theorem acquireCerr_eq_some {s next : State n} {thread : ThreadId n} :
    s.acquireCerr thread = some next ↔
      s.cerrLock = none ∧ next = { s with cerrLock := some thread } := by
  unfold acquireCerr
  split
  · rename_i hfree
    rw [and_iff_right hfree, Option.some.injEq, eq_comm]
  · rename_i htaken
    exact iff_of_false (fun impossible => nomatch impossible) fun both => htaken both.1

theorem map_acquireCerr_eq_some {s next : State n} {thread : ThreadId n}
    {goOn : State n → State n} (hstep : (s.acquireCerr thread).map goOn = some next) :
    s.cerrLock = none ∧ next = goOn { s with cerrLock := some thread } := by
  obtain ⟨locked, hacquire, rfl⟩ := Option.map_eq_some_iff.mp hstep
  obtain ⟨hfree, rfl⟩ := acquireCerr_eq_some.mp hacquire
  exact ⟨hfree, rfl⟩

/-! ## Calls that may fail -/

section Calls

variable {config : Rtgconf} {meets : Meeting} {s : State n}

/-- Only the rate of a counter exits. -/
theorem openSession_fault {target : Queryhost} {fault : Fault}
    (hfault : s.openSession meets target = .error fault) : fault ≠ .exit := by
  rcases bind_eq_error.mp hfault with hcreate | ⟨session, _, hfree⟩
  · rw [sessionCreate_fault hcreate]
    decide
  · cases session with
    | some session => cases hfree
    | none =>
        cases hfree
        decide

theorem clinsertCount_fault {inserts : Inserts} {fault : Fault}
    (hfault : clinsertCount inserts = .error fault) : fault ≠ .exit := by
  induction inserts with
  | nil =>
      cases hfault
      decide
  | cons slot inserts ih =>
      cases slot with
      | none => cases hfault
      | some insert =>
          rcases bind_eq_error.mp hfault with hrest | ⟨count, _, impossible⟩
          · exact ih hrest
          · cases impossible

theorem processQueries_fault {inserts : Inserts} {fault : Fault}
    (hfault : processQueries meets inserts = .error fault) : fault ≠ .exit := by
  rcases bind_eq_error.mp hfault with hcount | ⟨count, _, impossible⟩
  · exact clinsertCount_fault hcount
  · cases impossible

theorem openSession_ok {target : Queryhost} {opened : State n}
    (hopened : s.openSession meets target = .ok opened) : opened = s := by
  obtain ⟨session, _, hrest⟩ := bind_eq_ok.mp hopened
  cases session with
  | some session =>
      cases hrest
      rfl
  | none => cases hrest

/-- A turn of the loop over the rows ends the loop, or polls a row. -/
theorem queryRow_ok {host number : Nat} {progress : Progress}
    {queried : State n × HostStage}
    (hquery : s.queryRow config meets host number progress = .ok queried) :
    (s.row host number = none ∧ queried = (s, .snmpLock progress)) ∨
    ∃ row row' progress', s.row host number = some row ∧
      pollRow number row (meets.reply.map fun counter => ⟨counter, s.time⟩) progress =
        .ok (row', progress') ∧
      queried.1 = s.setRow host number row' ∧
      (queried.2 = .queryRow (number + 1) progress' ∨ queried.2 = .snmpLock progress') := by
  unfold State.queryRow at hquery
  cases hrow : s.row host number with
  | none =>
      rw [hrow] at hquery
      cases hquery
      exact Or.inl ⟨rfl, rfl⟩
  | some row =>
      rw [hrow] at hquery
      obtain ⟨polled, hpoll, hresult⟩ := bind_eq_ok.mp hquery
      cases hresult
      refine Or.inr ⟨row, polled.1, polled.2, rfl, hpoll, rfl, ?_⟩
      dsimp only
      split
      · exact Or.inr rfl
      · exact Or.inl rfl

theorem queryRow_error {host number : Nat} {progress : Progress} {fault : Fault}
    (hquery : s.queryRow config meets host number progress = .error fault) :
    ∃ row, s.row host number = some row ∧
      pollRow number row (meets.reply.map fun counter => ⟨counter, s.time⟩) progress =
        .error fault := by
  unfold State.queryRow at hquery
  cases hrow : s.row host number with
  | none =>
      rw [hrow] at hquery
      cases hquery
  | some row =>
      rw [hrow] at hquery
      rcases bind_eq_error.mp hquery with hpoll | ⟨polled, _, impossible⟩
      · exact ⟨row, rfl, hpoll⟩
      · cases impossible

theorem reply_dtime : ∀ sample,
    meets.reply.map (fun counter => Sample.mk counter s.time) = some sample →
      sample.dtime = s.time := by
  intro sample hsample
  obtain ⟨counter, _, rfl⟩ := Option.map_eq_some_iff.mp hsample
  rfl

end Calls

/-! ## Pollers -/

/-- The reply to a get, if there is one, was received now. -/
def State.Replies (s : State n) (reply : Reply) : Prop :=
  ∀ sample, reply = some sample → sample.dtime = s.time

/-- A step of `process_host`. -/
inductive HostMove (i : Fin n) (host round : Nat) (s : State n) : HostStage → State n → Prop where
  | opens :
      HostMove i host round s .openSession
        (s.goto i (.processing host round (.queryRow 0 Progress.start)))
  | openFails (fault : Fault) (hfault : fault ≠ .exit) :
      HostMove i host round s .openSession (s.fail fault)
  | endsRows (number : Nat) (progress : Progress) (hrow : s.row host number = none) :
      HostMove i host round s (.queryRow number progress)
        (s.goto i (.processing host round (.snmpLock progress)))
  | queries (number : Nat) (progress progress' : Progress) (row row' : Queryrow) (reply : Reply)
      (stage : HostStage) (hrow : s.row host number = some row) (hreply : s.Replies reply)
      (hpoll : pollRow number row reply progress = .ok (row', progress'))
      (hstage : stage = .queryRow (number + 1) progress' ∨ stage = .snmpLock progress') :
      HostMove i host round s (.queryRow number progress)
        ((s.setRow host number row').goto i (.processing host round stage))
  | queryFails (number : Nat) (progress : Progress) (row : Queryrow) (reply : Reply)
      (fault : Fault) (hrow : s.row host number = some row) (hreply : s.Replies reply)
      (hpoll : pollRow number row reply progress = .error fault) :
      HostMove i host round s (.queryRow number progress) (s.fail fault)
  | snmpLocks (progress : Progress) (hfree : s.globalLock = none) :
      HostMove i host round s (.snmpLock progress)
        ({ s with globalLock := some (.poller i) }.goto i
          (.processing host round (.snmpUpdate progress)))
  | snmpUpdates (progress : Progress) :
      HostMove i host round s (.snmpUpdate progress)
        ({ s with statistics := s.statistics.addSnmp progress }.goto i
          (.processing host round (.snmpUnlock progress.inserts)))
  | snmpUnlocks (inserts : Inserts) :
      HostMove i host round s (.snmpUnlock inserts)
        (s.release.goto i (.processing host round (.queueInserts inserts)))
  | queues (inserts : Inserts) (totals : QueryTotals) :
      HostMove i host round s (.queueInserts inserts)
        (s.goto i (.processing host round (.statsLock totals)))
  | queueFails (inserts : Inserts) (fault : Fault) (hfault : fault ≠ .exit) :
      HostMove i host round s (.queueInserts inserts) (s.fail fault)
  | statsLocks (totals : QueryTotals) (hfree : s.globalLock = none) :
      HostMove i host round s (.statsLock totals)
        ({ s with globalLock := some (.poller i) }.goto i
          (.processing host round (.statsUpdate totals)))
  | statsUpdates (totals : QueryTotals) :
      HostMove i host round s (.statsUpdate totals)
        ({ s with statistics := s.statistics.addQueries totals }.goto i
          (.processing host round .statsUnlock))
  | statsUnlocks :
      HostMove i host round s .statsUnlock ((s.release.finishHost host round).goto i .hostTest)

/-- A step of `poller_run`. -/
inductive PollerMove (i : Fin n) (s : State n) : PollerPc → State n → Prop where
  | loopStops (hstop : s.threadStopRequested = true) :
      PollerMove i s .loopTest (s.goto i .returned)
  | loops (hstop : s.threadStopRequested = false) :
      PollerMove i s .loopTest (s.goto i .inactiveLock)
  | inactiveLocks (hfree : s.globalLock = none) :
      PollerMove i s .inactiveLock
        ({ s with globalLock := some (.poller i) }.goto i .inactiveCount)
  | inactiveCounts (hcounted : (s.pollers i).iterations > 0) :
      PollerMove i s .inactiveCount
        ({ s with activeThreads := s.activeThreads - 1 }.goto i .inactiveLast)
  | inactiveSkips (hnew : ¬ (s.pollers i).iterations > 0) :
      PollerMove i s .inactiveCount (s.goto i .inactiveLast)
  | inactiveLasts (hlast : s.activeThreads = 0) :
      PollerMove i s .inactiveLast
        ({ s with
          statistics := { s.statistics with queryThreadsFinished := s.curms } }.goto i .condWait)
  | inactiveGoes (hothers : s.activeThreads ≠ 0) :
      PollerMove i s .inactiveLast (s.goto i .condWait)
  | waits : PollerMove i s .condWait (s.release.goto i (.waiting s.broadcasts))
  | wakes (seen : Nat) : PollerMove i s (.waiting seen) (s.goto i .relock)
  | relocks (hfree : s.globalLock = none) :
      PollerMove i s .relock
        ({ s with globalLock := some (.poller i) }.goto i .inactiveUnlock)
  | inactiveUnlocks : PollerMove i s .inactiveUnlock (s.release.goto i .stopTest)
  | stops (hstop : s.threadStopRequested = true) : PollerMove i s .stopTest (s.goto i .returned)
  | goesOn (hstop : s.threadStopRequested = false) :
      PollerMove i s .stopTest (s.goto i .activeLock)
  | activeLocks (hfree : s.globalLock = none) :
      PollerMove i s .activeLock ({ s with globalLock := some (.poller i) }.goto i .activeCount)
  | activeCounts :
      PollerMove i s .activeCount
        ({ s with activeThreads := s.activeThreads + 1 }.goto i .activeUnlock)
  | activeUnlocks : PollerMove i s .activeUnlock (s.release.goto i .hostTest)
  | hostsStop (hstop : s.threadStopRequested = true) :
      PollerMove i s .hostTest (s.goto i .roundEnd)
  | hostsGo (hstop : s.threadStopRequested = false) :
      PollerMove i s .hostTest (s.goto i .nextHost)
  | takes (hleft : s.nextHost < s.hosts.length) :
      PollerMove i s .nextHost
        ({ s with
          nextHost := s.nextHost + 1
          handedOut := s.handedOut ++ [s.nextHost] }.goto i
            (.processing s.nextHost s.round .openSession))
  | noneLeft (hnone : s.hosts.length ≤ s.nextHost) : PollerMove i s .nextHost (s.goto i .roundEnd)
  | processes {next : State n} (host round : Nat) (stage : HostStage)
      (move : HostMove i host round s stage next) :
      PollerMove i s (.processing host round stage) next
  | endsRound :
      PollerMove i s .roundEnd
        (s.setPoller i { pc := .loopTest, iterations := (s.pollers i).iterations + 1 })

section Pollers

variable {config : Rtgconf} {i : Fin n} {meets : Meeting} {s next : State n}

theorem hostStep_move {host round : Nat} {stage : HostStage}
    (hstep : hostStep config i meets host round s stage = some next) :
    HostMove i host round s stage next := by
  cases stage with
  | openSession =>
      obtain ⟨target, _, hnext⟩ := Option.map_eq_some_iff.mp hstep
      cases hopen : s.openSession meets target with
      | ok opened =>
          rw [hopen] at hnext
          cases hnext
          rw [openSession_ok hopen]
          exact .opens
      | error fault =>
          rw [hopen] at hnext
          cases hnext
          exact .openFails fault (openSession_fault hopen)
  | queryRow number progress =>
      have hnext := Option.some.inj hstep
      cases hquery : s.queryRow config meets host number progress with
      | ok queried =>
          rw [hquery] at hnext
          obtain ⟨after, stage⟩ := queried
          cases hnext
          rcases queryRow_ok hquery with ⟨hrow, hqueried⟩ |
            ⟨row, row', progress', hrow, hpoll, hqueried, hstage⟩
          · cases hqueried
            exact .endsRows number progress hrow
          · cases hqueried
            exact .queries number progress progress' row row' _ stage hrow reply_dtime hpoll hstage
      | error fault =>
          rw [hquery] at hnext
          cases hnext
          obtain ⟨row, hrow, hpoll⟩ := queryRow_error hquery
          exact .queryFails number progress row _ fault hrow reply_dtime hpoll
  | snmpLock progress =>
      obtain ⟨hfree, rfl⟩ := map_acquire_eq_some hstep
      exact .snmpLocks progress hfree
  | snmpUpdate progress =>
      cases hstep
      exact .snmpUpdates progress
  | snmpUnlock inserts =>
      cases hstep
      exact .snmpUnlocks inserts
  | queueInserts inserts =>
      have hnext := Option.some.inj hstep
      cases htotals : processQueries meets inserts with
      | ok totals =>
          rw [htotals] at hnext
          cases hnext
          exact .queues inserts totals
      | error fault =>
          rw [htotals] at hnext
          cases hnext
          exact .queueFails inserts fault (processQueries_fault htotals)
  | statsLock totals =>
      obtain ⟨hfree, rfl⟩ := map_acquire_eq_some hstep
      exact .statsLocks totals hfree
  | statsUpdate totals =>
      cases hstep
      exact .statsUpdates totals
  | statsUnlock =>
      cases hstep
      exact .statsUnlocks

theorem pollerStepAt_move {pc : PollerPc} (hstep : pollerStepAt config i meets s pc = some next) :
    PollerMove i s pc next := by
  cases pc with
  | loopTest =>
      cases hstep
      cases hstop : s.threadStopRequested with
      | true => exact .loopStops hstop
      | false => exact .loops hstop
  | inactiveLock =>
      obtain ⟨hfree, rfl⟩ := map_acquire_eq_some hstep
      exact .inactiveLocks hfree
  | inactiveCount =>
      cases hstep
      by_cases hcounted : (s.pollers i).iterations > 0
      · rw [if_pos hcounted]
        exact .inactiveCounts hcounted
      · rw [if_neg hcounted]
        exact .inactiveSkips hcounted
  | inactiveLast =>
      cases hstep
      by_cases hlast : s.activeThreads = 0
      · rw [if_pos hlast]
        exact .inactiveLasts hlast
      · rw [if_neg hlast]
        exact .inactiveGoes hlast
  | condWait =>
      cases hstep
      exact .waits
  | waiting seen =>
      rw [pollerStepAt] at hstep
      split at hstep
      · cases hstep
        exact .wakes seen
      · cases hstep
  | relock =>
      obtain ⟨hfree, rfl⟩ := map_acquire_eq_some hstep
      exact .relocks hfree
  | inactiveUnlock =>
      cases hstep
      exact .inactiveUnlocks
  | stopTest =>
      cases hstep
      cases hstop : s.threadStopRequested with
      | true => exact .stops hstop
      | false => exact .goesOn hstop
  | activeLock =>
      obtain ⟨hfree, rfl⟩ := map_acquire_eq_some hstep
      exact .activeLocks hfree
  | activeCount =>
      cases hstep
      exact .activeCounts
  | activeUnlock =>
      cases hstep
      exact .activeUnlocks
  | hostTest =>
      cases hstep
      cases hstop : s.threadStopRequested with
      | true => exact .hostsStop hstop
      | false => exact .hostsGo hstop
  | nextHost =>
      cases hstep
      unfold takeHost
      split
      · next hleft => exact .takes hleft
      · next hnone => exact .noneLeft (Nat.le_of_not_lt hnone)
  | processing host round stage => exact .processes host round stage (hostStep_move hstep)
  | roundEnd =>
      cases hstep
      exact .endsRound
  | returned => cases hstep

theorem pollerStep_move (hstep : pollerStep config i meets s = some next) :
    ∃ pc, (s.pollers i).pc = pc ∧ PollerMove i s pc next :=
  ⟨_, rfl, pollerStepAt_move hstep⟩

end Pollers

/-! ## Monitor -/

/-- A step of `monitor_run`. -/
inductive MonitorMove (config : Rtgconf) (s : State n) : MonitorPc → State n → Prop where
  | begins : MonitorMove config s .initialSleep (s.monitorGoto .loopTest)
  | stops (hstop : s.threadStopRequested = true) :
      MonitorMove config s .loopTest (s.monitorGoto .returned)
  | loops (hstop : s.threadStopRequested = false) :
      MonitorMove config s .loopTest (s.monitorGoto .readClock)
  | readsClock :
      MonitorMove config s .readClock
        { s with monitor := { s.monitor with pc := .startTest, now := s.curms } }
  | starts (hactive : s.activeThreads = 0) (htime : s.monitor.nextIteration ≤ s.monitor.now) :
      MonitorMove config s .startTest (s.monitorGoto .startCount)
  | passes (htest : ¬ (s.activeThreads = 0 ∧ s.monitor.nextIteration ≤ s.monitor.now)) :
      MonitorMove config s .startTest (s.monitorGoto .sleep)
  | counts :
      MonitorMove config s .startCount
        ({ s with
          statistics :=
            { s.statistics with
              iterations := s.statistics.iterations + 1 } }.monitorGoto .startLock)
  | startLocks (hfree : s.globalLock = none) :
      MonitorMove config s .startLock
        ({ s with globalLock := some .monitor }.monitorGoto .startReset)
  | resets : MonitorMove config s .startReset (s.resetNext.monitorGoto .startBroadcast)
  | broadcasts : MonitorMove config s .startBroadcast (s.broadcast.monitorGoto .startUnlock)
  | schedules :
      MonitorMove config s .startUnlock
        { s.release with
          monitor :=
            { s.monitor with
              pc := .sleep
              thisIteration := s.monitor.now
              nextIteration := nextInterval s.monitor.now config.interval } }
  | sleeps : MonitorMove config s .sleep (s.monitorGoto .endTest)
  | ends (hactive : s.activeThreads = 0) (hstarted : s.monitor.thisIteration ≠ 0) :
      MonitorMove config s .endTest
        { s with monitor := { s.monitor with pc := .ending endActions, report := [] } }
  | goesOn (htest : ¬ (s.activeThreads = 0 ∧ s.monitor.thisIteration ≠ 0)) :
      MonitorMove config s .endTest (s.monitorGoto .loopTest)
  | acts (action : EndAction) (actions : List EndAction) :
      MonitorMove config s (.ending (action :: actions))
        ((s.endAction action).monitorGoto (.ending actions))
  | early (htime : s.monitor.toSleepMs > 0) :
      MonitorMove config s (.ending []) (s.monitorGoto .endLock)
  | late (htime : ¬ s.monitor.toSleepMs > 0) : MonitorMove config s (.ending []) s.endIteration
  | endLocks (hfree : s.globalLock = none) :
      MonitorMove config s .endLock ({ s with globalLock := some .monitor }.monitorGoto .endWait)
  | waits : MonitorMove config s .endWait (s.release.monitorGoto .timedWaiting)
  | wakes : MonitorMove config s .timedWaiting (s.monitorGoto .endRelock)
  | relocks (hfree : s.globalLock = none) :
      MonitorMove config s .endRelock
        ({ s with globalLock := some .monitor }.monitorGoto .endUnlock)
  | endUnlocks : MonitorMove config s .endUnlock s.release.endIteration

section Monitor

variable {config : Rtgconf} {s next : State n}

theorem monitorStepAt_move {pc : MonitorPc} (hstep : monitorStepAt config s pc = some next) :
    MonitorMove config s pc next := by
  cases pc with
  | initialSleep =>
      cases hstep
      exact .begins
  | loopTest =>
      cases hstep
      cases hstop : s.threadStopRequested with
      | true => exact .stops hstop
      | false => exact .loops hstop
  | readClock =>
      cases hstep
      exact .readsClock
  | startTest =>
      rw [monitorStepAt] at hstep
      split at hstep
      · next hdue =>
          cases hstep
          exact .starts hdue.1 hdue.2
      · next htest =>
          cases hstep
          exact .passes htest
  | startCount =>
      cases hstep
      exact .counts
  | startLock =>
      obtain ⟨hfree, rfl⟩ := map_acquire_eq_some hstep
      exact .startLocks hfree
  | startReset =>
      cases hstep
      exact .resets
  | startBroadcast =>
      cases hstep
      exact .broadcasts
  | startUnlock =>
      cases hstep
      exact .schedules
  | sleep =>
      cases hstep
      exact .sleeps
  | endTest =>
      rw [monitorStepAt] at hstep
      split at hstep
      · next hdone =>
          cases hstep
          exact .ends hdone.1 hdone.2
      · next htest =>
          cases hstep
          exact .goesOn htest
  | ending actions =>
      cases actions with
      | nil =>
          rw [monitorStepAt] at hstep
          split at hstep
          · next htime =>
              cases hstep
              exact .early htime
          · next htime =>
              cases hstep
              exact .late htime
      | cons action actions =>
          cases hstep
          exact .acts action actions
  | endLock =>
      obtain ⟨hfree, rfl⟩ := map_acquire_eq_some hstep
      exact .endLocks hfree
  | endWait =>
      cases hstep
      exact .waits
  | timedWaiting =>
      cases hstep
      exact .wakes
  | endRelock =>
      obtain ⟨hfree, rfl⟩ := map_acquire_eq_some hstep
      exact .relocks hfree
  | endUnlock =>
      cases hstep
      exact .endUnlocks
  | returned => cases hstep

theorem monitorStep_move (hstep : monitorStep config s = some next) :
    ∃ pc, s.monitor.pc = pc ∧ MonitorMove config s pc next :=
  ⟨_, rfl, monitorStepAt_move hstep⟩

end Monitor

/-! ## The log -/

/-- A step of a thread's own code in `cllog`. -/
inductive CllogMove (thread : ThreadId n) (s : State n) : LogPc → State n → Prop where
  | locks (hfree : s.cerrLock = none) :
      CllogMove thread s .lock ({ s with cerrLock := some thread }.goLogging thread .unlock)
  | unlocks : CllogMove thread s .unlock (s.releaseCerr.goLogging thread .outside)

theorem cllogStep_move {thread : ThreadId n} {s next : State n}
    (hstep : cllogStep thread s = some next) :
    s.handlers thread = [] ∧ ∃ pc, s.logging thread = pc ∧ CllogMove thread s pc next := by
  unfold cllogStep at hstep
  split at hstep
  · rename_i hidle
    refine ⟨hidle, _, rfl, ?_⟩
    cases hpc : s.logging thread with
    | outside =>
        rw [hpc] at hstep
        cases hstep
    | lock =>
        rw [hpc] at hstep
        obtain ⟨hfree, rfl⟩ := map_acquireCerr_eq_some hstep
        exact .locks hfree
    | unlock =>
        rw [hpc] at hstep
        cases hstep
        exact .unlocks
  · cases hstep

/-! ## Handlers -/

/-- A step of the topmost handler on a thread. -/
inductive HandlerMove (thread : ThreadId n) (s : State n) : List HandlerPc → State n → Prop where
  | cllogLocks (signal : Signal) (frames : List HandlerPc) (hfree : s.cerrLock = none) :
      HandlerMove thread s (.cllogLock signal :: frames)
        { s with
          cerrLock := some thread
          handlers := Function.update s.handlers thread (.cllogUnlock signal :: frames) }
  | cllogUnlocks (signal : Signal) (frames : List HandlerPc) :
      HandlerMove thread s (.cllogUnlock signal :: frames)
        { s.releaseCerr with
          handlers := Function.update s.handlers thread (.requestStop signal :: frames) }
  | hangsUp (frames : List HandlerPc) :
      HandlerMove thread s (.requestStop .hup :: frames)
        { s with
          threadStopRequested := true
          handlers := Function.update s.handlers thread (.lock :: frames) }
  | terminates (frames : List HandlerPc) :
      HandlerMove thread s (.requestStop .term :: frames)
        { s with
          threadStopRequested := true
          handlers := Function.update s.handlers thread (.requestFullStop :: frames) }
  | stopsFully (frames : List HandlerPc) :
      HandlerMove thread s (.requestFullStop :: frames)
        { s with
          fullStopRequested := true
          handlers := Function.update s.handlers thread (.lock :: frames) }
  | locks (frames : List HandlerPc) (hfree : s.globalLock = none) :
      HandlerMove thread s (.lock :: frames)
        { s with
          globalLock := some thread
          handlers := Function.update s.handlers thread (.broadcast :: frames) }
  | broadcasts (frames : List HandlerPc) :
      HandlerMove thread s (.broadcast :: frames)
        { s.broadcast with handlers := Function.update s.handlers thread (.unlock :: frames) }
  | unlocks (frames : List HandlerPc) :
      HandlerMove thread s (.unlock :: frames)
        { s.release with handlers := Function.update s.handlers thread frames }

theorem handlerStep_move {thread : ThreadId n} {s next : State n}
    (hstep : handlerStep thread s = some next) :
    ∃ frames, s.handlers thread = frames ∧ HandlerMove thread s frames next := by
  refine ⟨_, rfl, ?_⟩
  unfold handlerStep at hstep
  cases hframes : s.handlers thread with
  | nil =>
      rw [hframes] at hstep
      cases hstep
  | cons frame frames =>
      rw [hframes] at hstep
      cases frame with
      | cllogLock signal =>
          obtain ⟨hfree, rfl⟩ := map_acquireCerr_eq_some hstep
          exact .cllogLocks signal frames hfree
      | cllogUnlock signal =>
          cases hstep
          exact .cllogUnlocks signal frames
      | requestStop signal =>
          cases signal with
          | hup =>
              cases hstep
              exact .hangsUp frames
          | term =>
              cases hstep
              exact .terminates frames
      | requestFullStop =>
          cases hstep
          exact .stopsFully frames
      | lock =>
          obtain ⟨hfree, rfl⟩ := map_acquire_eq_some hstep
          exact .locks frames hfree
      | broadcast =>
          cases hstep
          exact .broadcasts frames
      | unlock =>
          cases hstep
          exact .unlocks frames

end ClusteredPoller.Threads
