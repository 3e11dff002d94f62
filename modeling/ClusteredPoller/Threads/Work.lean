import ClusteredPoller.Threads.InHand
import ClusteredPoller.Threads.Shutdown

/-!
# What is left to do after a stop request

With the stop flag set, every loop of a thread is left at its next test.  The
work that is left is counted in steps, from a program counter on.
-/

namespace ClusteredPoller.Threads

open Poller State

variable {n : Nat}

/-! ## Counting the steps -/

section Counts

/-- The rows of a host, and the steps of `process_queries`, at most. -/
structure Limits where
  rows : Nat
  queries : Nat

variable (limits : Limits)

def HostStage.work : HostStage → Nat
  | .openSession => limits.queries + limits.rows + 9
  | .queryRow number _ => limits.queries + (limits.rows - number) + 8
  | .snmpLock _ => limits.queries + 7
  | .snmpUpdate _ => limits.queries + 6
  | .snmpUnlock _ => limits.queries + 5
  | .queueInserts _ => limits.queries + 4
  | .statsLock _ => 3
  | .statsUpdate _ => 2
  | .statsUnlock => 1

/-- The steps of `poller_run` up to its return. -/
def PollerPc.work : PollerPc → Nat
  | .inactiveLock => 14
  | .inactiveCount => 13
  | .inactiveLast => 12
  | .condWait => 11
  | .waiting _ => 10
  | .relock => 9
  | .inactiveUnlock => 8
  | .stopTest => 7
  | .activeLock => 6
  | .activeCount => 5
  | .activeUnlock => 4
  | .nextHost => limits.queries + limits.rows + 13
  | .processing _ _ stage => stage.work limits + 3
  | .hostTest => 3
  | .roundEnd => 2
  | .loopTest => 1
  | .returned => 0

/-- The steps of `monitor_run` up to its return. -/
def MonitorPc.work : MonitorPc → Nat
  | .readClock => 38
  | .startTest => 37
  | .startCount => 36
  | .startLock => 35
  | .startReset => 34
  | .startBroadcast => 33
  | .startUnlock => 32
  | .sleep => 31
  | .endTest => 30
  | .ending actions => actions.length + 7
  | .endLock => 6
  | .endWait => 5
  | .timedWaiting => 4
  | .endRelock => 3
  | .endUnlock | .initialSleep => 2
  | .loopTest => 1
  | .returned => 0

def HandlerPc.work : HandlerPc → Nat
  | .cllogLock _ => 7
  | .cllogUnlock _ => 6
  | .requestStop _ => 5
  | .requestFullStop => 4
  | .lock => 3
  | .broadcast => 2
  | .unlock => 1

/-- The steps of the handlers that run on a thread. -/
def framesWork (frames : List HandlerPc) : Nat := (frames.map HandlerPc.work).sum

def LogPc.work : LogPc → Nat
  | .lock => 2
  | .unlock => 1
  | .outside => 0

/-- The steps of the handlers that run on a thread, and of its own call of
`cllog`. -/
def State.sideWork (s : State n) (thread : ThreadId n) : Nat :=
  framesWork (s.handlers thread) + (s.logging thread).work

end Counts

/-! ## Steps after a stop request -/

/-- No host has more rows. -/
def RowsWithin (limits : Limits) (s : State n) : Prop :=
  ∀ host ∈ s.hosts, host.rows.length ≤ limits.rows

section Steps

variable {limits : Limits} {config : Rtgconf} {s next : State n} {i : Fin n} {meets : Meeting}

theorem number_lt_of_row {host number : Nat} {row : Queryrow} (within : RowsWithin limits s)
    (hrow : s.row host number = some row) : number < limits.rows := by
  obtain ⟨target, htarget, hnumber⟩ := Option.bind_eq_some_iff.mp hrow
  have hlength := (List.getElem?_eq_some_iff.mp hnumber).1
  exact Nat.lt_of_lt_of_le hlength (within target (List.mem_of_getElem? htarget))

theorem hostMove_work {host round : Nat} {stage : HostStage}
    (hpc : (s.pollers i).pc = .processing host round stage) (within : RowsWithin limits s)
    (move : HostMove i host round s stage next) :
    (next.pollers i).pc.work limits < (s.pollers i).pc.work limits ∨
      (next.fault ≠ none ∧ next.pollers = s.pollers) := by
  rw [hpc]
  cases move with
  | openFails | queryFails | queueFails => exact Or.inr ⟨nofun, rfl⟩
  | queries number progress progress' row row' reply stage hrow hreply hpoll hstage =>
      have hnumber := number_lt_of_row within hrow
      rw [goto_pc]
      refine Or.inl ?_
      rcases hstage with rfl | rfl
      · simp only [PollerPc.work, HostStage.work]
        omega
      · simp only [PollerPc.work, HostStage.work]
        omega
  | _ =>
      rw [goto_pc]
      simp only [PollerPc.work, HostStage.work]
      omega

theorem pollerStep_work (hstop : s.threadStopRequested = true) (within : RowsWithin limits s)
    (hstep : pollerStep config i meets s = some next) :
    (next.pollers i).pc.work limits < (s.pollers i).pc.work limits ∨
      (next.fault ≠ none ∧ next.pollers = s.pollers) := by
  obtain ⟨pc, hpc, move⟩ := pollerStep_move hstep
  cases move with
  | processes host round stage move => exact hostMove_work hpc within move
  | loops hrunning | hostsGo hrunning =>
      rw [hstop] at hrunning
      cases hrunning
  | endsRound =>
      rw [hpc]
      dsimp only [setPoller]
      rw [Function.update_self]
      exact Or.inl (Nat.lt_succ_self 1)
  | _ =>
      rw [hpc, goto_pc]
      simp only [PollerPc.work, HostStage.work]
      omega

theorem monitorStep_work (hstop : s.threadStopRequested = true)
    (hstep : monitorStep config s = some next) :
    next.monitor.pc.work < s.monitor.pc.work := by
  obtain ⟨pc, hpc, move⟩ := monitorStep_move hstep
  rw [hpc]
  cases move with
  | loops hrunning =>
      rw [hstop] at hrunning
      cases hrunning
  | acts action actions =>
      exact Nat.lt_succ_self (actions.length + 7)
  | _ => simp [MonitorPc.work, monitorGoto, endIteration, endActions, release]

theorem sideWork_congr (hhandlers : next.handlers = s.handlers)
    (hlogging : next.logging = s.logging) : next.sideWork = s.sideWork := by
  funext thread
  rw [State.sideWork, State.sideWork, hhandlers, hlogging]

/-- A handler's step, on the frames of its thread. -/
theorem handlerStep_work {thread : ThreadId n} (hstep : handlerStep thread s = some next) :
    next.sideWork thread < s.sideWork thread ∧
      ∀ other, other ≠ thread → next.sideWork other = s.sideWork other := by
  obtain ⟨frames, hframes, move⟩ := handlerStep_move hstep
  have updates : ∀ {after : List HandlerPc},
      next.handlers = Function.update s.handlers thread after → next.logging = s.logging →
      framesWork after < framesWork frames →
      next.sideWork thread < s.sideWork thread ∧
        ∀ other, other ≠ thread → next.sideWork other = s.sideWork other := by
    intro after hafter hlogging hless
    unfold State.sideWork
    rw [hafter, hlogging, Function.update_self, hframes]
    exact ⟨Nat.add_lt_add_right hless _,
      fun other hother => by rw [Function.update_of_ne hother]⟩
  cases move with
  | _ => exact updates rfl rfl (by simp [framesWork, HandlerPc.work])

/-- A thread goes on with its own call of `cllog`. -/
theorem sideWork_goLogging (s : State n) (thread : ThreadId n) (pc : LogPc) :
    (s.goLogging thread pc).sideWork thread + (s.logging thread).work =
        s.sideWork thread + pc.work ∧
      ∀ other, other ≠ thread → (s.goLogging thread pc).sideWork other = s.sideWork other := by
  unfold State.sideWork goLogging
  dsimp only
  rw [Function.update_self]
  exact ⟨Nat.add_right_comm _ _ _, fun other hother => by rw [Function.update_of_ne hother]⟩

theorem cllogStep_work {thread : ThreadId n} (hstep : cllogStep thread s = some next) :
    next.sideWork thread < s.sideWork thread ∧
      ∀ other, other ≠ thread → next.sideWork other = s.sideWork other := by
  obtain ⟨-, pc, hpc, move⟩ := cllogStep_move hstep
  cases move with
  | locks =>
      obtain ⟨hself, hothers⟩ :=
        sideWork_goLogging { s with cerrLock := some thread } thread .unlock
      dsimp only at hself
      rw [hpc] at hself
      exact ⟨Nat.lt_of_add_lt_add_right (hself.trans_lt (Nat.add_lt_add_left (by decide) _)),
        hothers⟩
  | unlocks =>
      obtain ⟨hself, hothers⟩ := sideWork_goLogging s.releaseCerr thread .outside
      dsimp only [releaseCerr] at hself
      rw [hpc] at hself
      exact ⟨Nat.lt_of_add_lt_add_right (hself.trans_lt (Nat.add_lt_add_left (by decide) _)),
        hothers⟩

/-- What a step does to the work. -/
inductive StepWork (limits : Limits) (s next : State n) : Label n → Prop where
  | polls (i : Fin n) (meets : Meeting)
      (hless : (next.pollers i).pc.work limits < (s.pollers i).pc.work limits)
      (hothers : ∀ k, k ≠ i → next.pollers k = s.pollers k) (houtside : next.outside = s.outside) :
      StepWork limits s next (.poller i meets)
  | fails (i : Fin n) (meets : Meeting) (hfault : next.fault ≠ none)
      (hpollers : next.pollers = s.pollers) (houtside : next.outside = s.outside) :
      StepWork limits s next (.poller i meets)
  | monitors (hless : next.monitor.pc.work < s.monitor.pc.work)
      (hpollers : next.pollers = s.pollers) (hside : next.sideWork = s.sideWork) :
      StepWork limits s next .monitor
  /-- A handler, or a call of `cllog`, goes on. -/
  | aside (label : Label n) (thread : ThreadId n) (hless : next.sideWork thread < s.sideWork thread)
      (hothers : ∀ other, other ≠ thread → next.sideWork other = s.sideWork other)
      (hpollers : next.pollers = s.pollers) (hmonitor : next.monitor = s.monitor) :
      StepWork limits s next label
  /-- The call of `cllog` is still to be made. -/
  | calls (thread : ThreadId n) (hmore : next.sideWork thread = s.sideWork thread + 2)
      (hothers : ∀ other, other ≠ thread → next.sideWork other = s.sideWork other)
      (hpollers : next.pollers = s.pollers) (hmonitor : next.monitor = s.monitor) :
      StepWork limits s next (.callsCllog thread)
  | ticks (ms : Nat) (hpollers : next.pollers = s.pollers) (hmonitor : next.monitor = s.monitor)
      (hside : next.sideWork = s.sideWork) : StepWork limits s next (.tick ms)

theorem step_work {label : Label n} (hquiet : label.isSignal = false)
    (hstop : s.threadStopRequested = true) (within : RowsWithin limits s)
    (hstep : step config label s = some next) : StepWork limits s next label := by
  obtain ⟨-, effect⟩ := step_effect hstep
  cases effect with
  | ticks ms hnext =>
      subst hnext
      exact .ticks ms rfl rfl rfl
  | polls i meets _ hpoll effect houtside =>
      rcases pollerStep_work hstop within hpoll with hless | ⟨hfault, hpollers⟩
      · exact .polls i meets hless (fun k hki => effect.others hki) houtside
      · exact .fails i meets hfault hpollers houtside
  | monitors _ hmonitor effect =>
      exact .monitors (monitorStep_work hstop hmonitor) effect.pollers
        (sideWork_congr effect.handlers effect.logging)
  | calls thread hready _ hnext =>
      subst hnext
      obtain ⟨hself, hothers⟩ := sideWork_goLogging s thread .lock
      rw [hready.2] at hself
      exact .calls thread hself hothers rfl rfl
  | logs thread hlog _ _ hnext =>
      obtain ⟨hless, hothers⟩ := cllogStep_work hlog
      exact .aside _ thread hless hothers (by rw [hnext]) (by rw [hnext])
  | handles thread hhandler effect =>
      obtain ⟨hless, hothers⟩ := handlerStep_work hhandler
      exact .aside _ thread hless hothers effect.pollers effect.monitor
  | signals => cases hquiet

/-! ## What stays -/

theorem handlerStep_stop {thread : ThreadId n} (hstep : handlerStep thread s = some next)
    (hstop : s.threadStopRequested = true) : next.threadStopRequested = true := by
  obtain ⟨frames, -, move⟩ := handlerStep_move hstep
  cases move with
  | hangsUp | terminates => rfl
  | _ => exact hstop

/-- Nothing takes the stop request back. -/
theorem step_stop {label : Label n} (hstep : step config label s = some next)
    (hstop : s.threadStopRequested = true) : next.threadStopRequested = true := by
  obtain ⟨-, effect⟩ := step_effect hstep
  cases effect with
  | ticks ms hnext | calls _ _ _ hnext | logs _ _ _ _ hnext | signals _ _ _ hnext =>
      subst hnext
      exact hstop
  | polls i meets _ _ _ houtside =>
      exact (congrArg Outside.threadStopRequested houtside).trans hstop
  | monitors _ _ effect => exact effect.stop.trans hstop
  | handles thread hhandler _ => exact handlerStep_stop hhandler hstop

def rowCounts (hosts : List Queryhost) : List Nat := hosts.map fun host => host.rows.length

theorem rowCounts_setRow (host number : Nat) (row : Queryrow) :
    rowCounts (s.setRow host number row).hosts = rowCounts s.hosts := by
  apply List.ext_getElem?
  intro index
  simp only [rowCounts, State.setRow, List.getElem?_map, List.getElem?_modify]
  cases s.hosts[index]? with
  | none => rfl
  | some target =>
      by_cases hindex : host = index
      · simp [hindex]
      · simp [hindex]

theorem pollerEffect_rowCounts (effect : PollerEffect i s next) :
    rowCounts next.hosts = rowCounts s.hosts := by
  cases effect with
  | moves _ _ hshared | leaves _ _ _ hshared | enters _ _ hshared | takes _ _ _ hshared
  | leavesLoop _ _ _ _ hshared | finishes _ _ _ _ hshared | endsRound _ hshared
  | returns _ _ _ hshared | fails _ hshared =>
      exact congrArg (fun shared => rowCounts shared.hosts) hshared
  | queries _ host _ number _ _ row' _ _ _ _ _ _ hshared =>
      exact (congrArg (fun shared => rowCounts shared.hosts) hshared).trans
        (rowCounts_setRow host number row')

/-- The hosts keep their rows. -/
theorem step_rowCounts {label : Label n} (hstep : step config label s = some next) :
    rowCounts next.hosts = rowCounts s.hosts := by
  obtain ⟨-, effect⟩ := step_effect hstep
  cases effect with
  | ticks ms hnext | calls _ _ _ hnext | logs _ _ _ _ hnext | signals _ _ _ hnext =>
      subst hnext
      rfl
  | polls i meets _ _ effect _ => exact pollerEffect_rowCounts effect
  | monitors _ _ effect =>
      cases effect.effect with
      | resets _ hshared | ends _ _ _ hshared | moves hshared =>
          exact congrArg (fun shared => rowCounts shared.hosts) hshared
  | handles thread _ effect =>
      exact congrArg (fun shared => rowCounts shared.hosts) effect.shared

theorem rowsWithin_iff :
    RowsWithin limits s ↔ ∀ count ∈ rowCounts s.hosts, count ≤ limits.rows := by
  unfold RowsWithin rowCounts
  rw [List.forall_mem_map]

theorem RowsWithin.step {label : Label n} (within : RowsWithin limits s)
    (hstep : step config label s = some next) : RowsWithin limits next := by
  rw [rowsWithin_iff, step_rowCounts hstep]
  exact rowsWithin_iff.mp within

end Steps

end ClusteredPoller.Threads
