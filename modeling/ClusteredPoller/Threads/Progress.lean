import ClusteredPoller.Threads.Work

/-!
# Who can go on after a stop request

The owner of a lock can go on, and with the locks free every handler, every
thread in `cllog`, the monitor unless it sleeps, and every poller that is not in
`process_queries`; a poller that waits has a broadcast to wake it, or a handler
is about to make one.
-/

namespace ClusteredPoller.Threads

open Poller State

variable {n : Nat}

/-- The monitor sleeps, or waits with a time limit. -/
def MonitorPc.waitsForTime : MonitorPc → Bool
  | .initialSleep | .sleep | .timedWaiting => true
  | _ => false

/-- What a thread does by itself.  Time passes, a signal arrives and a wait ends
without a broadcast only by chance, and no thread has to call `cllog`. -/
def State.acts (s : State n) : Label n → Bool
  | .tick _ | .signal _ _ | .callsCllog _ => false
  | .poller _ meets => !meets.spurious
  | .monitor => !s.monitor.pc.waitsForTime
  | .cllog _ | .handler _ => true

/-- The hosts in work are hosts of the targets. -/
def InRange (s : State n) : Prop :=
  ∀ i work, (s.pollers i).pc.inWork = some work → work.1 < s.hosts.length

section Progress

variable {config : Rtgconf} {s next : State n}

/-! ## Hosts in work -/

theorem InRange.kept (inRange : InRange s) (hlength : next.hosts.length = s.hosts.length)
    (hwork : ∀ i work, (next.pollers i).pc.inWork = some work →
      (∃ k, (s.pollers k).pc.inWork = some work) ∨ work.1 < s.hosts.length) : InRange next := by
  intro i work hinWork
  rw [hlength]
  rcases hwork i work hinWork with ⟨k, hbefore⟩ | hhost
  · exact inRange k work hbefore
  · exact hhost

/-- A poller goes to another program counter. -/
theorem InRange.update {i : Fin n} {poller : PollerThread} (inRange : InRange s)
    (hlength : next.hosts.length = s.hosts.length)
    (hpollers : next.pollers = Function.update s.pollers i poller)
    (hwork : ∀ work, poller.pc.inWork = some work →
      (s.pollers i).pc.inWork = some work ∨ work.1 < s.hosts.length) : InRange next := by
  refine inRange.kept hlength fun k work hinWork => ?_
  rw [hpollers] at hinWork
  by_cases hki : k = i
  · subst hki
    rw [Function.update_self] at hinWork
    exact (hwork work hinWork).imp (fun hbefore => ⟨k, hbefore⟩) id
  · rw [Function.update_of_ne hki] at hinWork
    exact Or.inl ⟨k, hinWork⟩

theorem InRange.polls {i : Fin n} (inRange : InRange s) (effect : PollerEffect i s next) :
    InRange next := by
  have hcounts := congrArg List.length (pollerEffect_rowCounts effect)
  rw [rowCounts, rowCounts, List.length_map, List.length_map] at hcounts
  cases effect with
  | moves pc like _ hpollers =>
      exact inRange.update hcounts hpollers fun work hwork => Or.inl (like.inWork ▸ hwork)
  | leaves poller _ _ _ hpollers hafter | enters poller _ _ hpollers hafter
  | leavesLoop poller _ _ _ _ hpollers hafter | finishes poller _ _ _ _ hpollers hafter
  | returns poller _ _ _ hpollers hafter =>
      refine inRange.update hcounts hpollers fun work hwork => ?_
      rw [hafter] at hwork
      cases hwork
  | takes poller _ hleft _ hpollers hafter =>
      refine inRange.update hcounts hpollers fun work hwork => Or.inr ?_
      rw [hafter] at hwork
      cases hwork
      exact hleft
  | queries poller host round _ _ _ _ _ _ hpc _ _ _ _ hpollers hafter =>
      refine inRange.update hcounts hpollers fun work hwork => Or.inl ?_
      rw [hpc]
      exact hafter.symm.trans hwork
  | endsRound _ _ hpollers =>
      refine inRange.update hcounts hpollers fun work hwork => ?_
      cases hwork
  | fails _ _ hpollers =>
      refine inRange.kept hcounts fun k work hwork => Or.inl ⟨k, ?_⟩
      rw [← hpollers]
      exact hwork

theorem InRange.step {label : Label n} (inRange : InRange s)
    (hstep : step config label s = some next) : InRange next := by
  have hcounts := congrArg List.length (step_rowCounts hstep)
  rw [rowCounts, rowCounts, List.length_map, List.length_map] at hcounts
  obtain ⟨-, effect⟩ := step_effect hstep
  have same : next.pollers = s.pollers → InRange next := fun hpollers =>
    inRange.kept hcounts fun k work hwork => Or.inl ⟨k, by rw [← hpollers]; exact hwork⟩
  cases effect with
  | ticks _ hnext | calls _ _ _ hnext | logs _ _ _ _ hnext | signals _ _ _ hnext =>
      subst hnext
      exact inRange
  | polls i meets _ _ effect _ => exact inRange.polls effect
  | monitors _ _ effect => exact same effect.pollers
  | handles _ _ effect => exact same effect.pollers

/-! ## Threads that can go on -/

theorem acquire_enabled {thread : ThreadId n} {goOn : State n → State n}
    (hfree : s.globalLock = none) : ∃ next, (s.acquire thread).map goOn = some next := by
  rw [acquire, if_pos hfree]
  exact ⟨_, rfl⟩

theorem acquireCerr_enabled {thread : ThreadId n} {goOn : State n → State n}
    (hfree : s.cerrLock = none) : ∃ next, (s.acquireCerr thread).map goOn = some next := by
  rw [acquireCerr, if_pos hfree]
  exact ⟨_, rfl⟩

theorem hostStep_enabled {i : Fin n} {host round : Nat} {stage : HostStage}
    (hfree : s.globalLock = none) (hhost : host < s.hosts.length) :
    ∃ next, hostStep config i {} host round s stage = some next := by
  cases stage with
  | openSession =>
      rw [hostStep, List.getElem?_eq_getElem hhost]
      exact ⟨_, rfl⟩
  | snmpLock | statsLock => exact acquire_enabled hfree
  | queryRow | snmpUpdate | snmpUnlock | queueInserts | statsUpdate | statsUnlock =>
      exact ⟨_, rfl⟩

theorem pollerStep_enabled {i : Fin n} (inRange : InRange s) (hfree : s.globalLock = none)
    (hpc : (s.pollers i).pc ≠ .returned)
    (hwoken : ∀ seen, (s.pollers i).pc = .waiting seen → seen < s.broadcasts) :
    ∃ next, pollerStep config i {} s = some next := by
  rw [pollerStep]
  cases hat : (s.pollers i).pc with
  | inactiveLock | relock | activeLock => exact acquire_enabled hfree
  | waiting seen => exact ⟨_, if_pos (Or.inl (hwoken seen hat))⟩
  | processing host round stage =>
      exact hostStep_enabled hfree (inRange i (host, round) (by rw [hat]; rfl))
  | returned => exact absurd hat hpc
  | loopTest | inactiveCount | inactiveLast | condWait | inactiveUnlock | stopTest | activeCount
  | activeUnlock | hostTest | nextHost | roundEnd => exact ⟨_, rfl⟩

theorem monitorStep_enabled (hfree : s.globalLock = none) (hpc : s.monitor.pc ≠ .returned) :
    ∃ next, monitorStep config s = some next := by
  rw [monitorStep]
  cases hat : s.monitor.pc with
  | startLock | endLock | endRelock => exact acquire_enabled hfree
  | returned => exact absurd hat hpc
  | endTest =>
      rw [monitorStepAt]
      split <;> exact ⟨_, rfl⟩
  | ending actions =>
      cases actions with
      | nil | cons => exact ⟨_, rfl⟩
  | initialSleep | loopTest | readClock | startTest | startCount | startReset | startBroadcast
  | startUnlock | sleep | endWait | timedWaiting | endUnlock => exact ⟨_, rfl⟩

theorem handlerStep_enabled {thread : ThreadId n} (hfree : s.globalLock = none)
    (hcerr : s.cerrLock = none) (hframes : s.handlers thread ≠ []) :
    ∃ next, handlerStep thread s = some next := by
  unfold handlerStep
  cases hat : s.handlers thread with
  | nil => exact absurd hat hframes
  | cons frame frames =>
      cases frame with
      | requestStop signal =>
          cases signal with
          | hup | term => exact ⟨_, rfl⟩
      | cllogLock signal => exact acquireCerr_enabled hcerr
      | lock => exact acquire_enabled hfree
      | cllogUnlock | requestFullStop | broadcast | unlock => exact ⟨_, rfl⟩

theorem cllogStep_enabled {thread : ThreadId n} (hcerr : s.cerrLock = none)
    (hidle : s.handlers thread = []) (hlogging : s.logging thread ≠ .outside) :
    ∃ next, cllogStep thread s = some next := by
  unfold cllogStep
  rw [if_pos hidle]
  cases hpc : s.logging thread with
  | lock => exact acquireCerr_enabled hcerr
  | unlock => exact ⟨_, rfl⟩
  | outside => exact absurd hpc hlogging

/-- A thread can go on, outside of `process_queries`. -/
def CanAct (config : Rtgconf) (s : State n) : Prop :=
  ∃ label, s.acts label = true ∧ s.clear label = true ∧ (step config label s).isSome = true

theorem canAct_poller {i : Fin n} (hfault : s.fault = none) (hready : s.Ready (.poller i))
    (hclear : (s.pollers i).pc.queues = false)
    (hstep : ∃ next, pollerStep config i {} s = some next) : CanAct config s := by
  obtain ⟨next, hnext⟩ := hstep
  refine ⟨.poller i {}, rfl, Bool.not_eq_true' _ |>.mpr hclear, ?_⟩
  rw [step_poller hfault hready, hnext]
  rfl

theorem canAct_monitor (hfault : s.fault = none) (hready : s.Ready .monitor)
    (hawake : s.monitor.pc.waitsForTime = false)
    (hstep : ∃ next, monitorStep config s = some next) : CanAct config s := by
  obtain ⟨next, hnext⟩ := hstep
  refine ⟨.monitor, Bool.not_eq_true' _ |>.mpr hawake, rfl, ?_⟩
  rw [step_monitor hfault hready, hnext]
  rfl

theorem canAct_cllog {thread : ThreadId n} (hfault : s.fault = none)
    (hstep : ∃ next, cllogStep thread s = some next) : CanAct config s := by
  obtain ⟨next, hnext⟩ := hstep
  refine ⟨.cllog thread, rfl, rfl, ?_⟩
  rw [step_cllog hfault, hnext]
  rfl

theorem canAct_handler {thread : ThreadId n} (hfault : s.fault = none)
    (hstep : ∃ next, handlerStep thread s = some next) : CanAct config s := by
  obtain ⟨next, hnext⟩ := hstep
  refine ⟨.handler thread, rfl, rfl, ?_⟩
  rw [step_handler hfault, hnext]
  rfl

theorem queues_of_critical {pc : PollerPc} (hcritical : 0 < pc.critical) : pc.queues = false := by
  cases pc with
  | processing host round stage =>
      cases stage with
      | queueInserts inserts => exact absurd hcritical (Nat.lt_irrefl 0)
      | _ => rfl
  | _ => rfl

theorem awake_of_critical {pc : MonitorPc} (hcritical : 0 < pc.critical) :
    pc.waitsForTime = false := by
  cases pc with
  | initialSleep | sleep | timedWaiting => exact absurd hcritical (Nat.lt_irrefl 0)
  | _ => rfl

/-- Who writes to the log can go on. -/
theorem canAct_writer {thread : ThreadId n} (cerr : CerrSound s) (hfault : s.fault = none)
    (hwriter : s.cerrLock = some thread) : CanAct config s := by
  have hwriting := (cerr.owner thread).mp hwriter
  cases hframes : s.handlers thread with
  | cons frame frames =>
      rw [writing_of_handler hframes] at hwriting
      have henabled : ∃ next, handlerStep thread s = some next := by
        unfold handlerStep
        rw [hframes]
        cases frame with
        | cllogUnlock signal => exact ⟨_, rfl⟩
        | _ => exact absurd hwriting (Nat.lt_irrefl 0)
      exact canAct_handler hfault henabled
  | nil =>
      rw [writing_of_idle hframes] at hwriting
      have henabled : ∃ next, cllogStep thread s = some next := by
        unfold cllogStep
        rw [if_pos hframes]
        cases hpc : s.logging thread with
        | unlock => exact ⟨_, rfl⟩
        | _ =>
            rw [hpc] at hwriting
            exact absurd hwriting (Nat.lt_irrefl 0)
      exact canAct_cllog hfault henabled

/-- With the log free, the owner of the lock can go on. -/
theorem canAct_owner {thread : ThreadId n} (sound : LockSound s) (hfault : s.fault = none)
    (hcerr : s.cerrLock = none) (howner : s.globalLock = some thread) : CanAct config s := by
  have hcritical := (sound.owner thread).mp howner
  cases hframes : s.handlers thread with
  | cons frame frames =>
      rw [critical_of_handler hframes] at hcritical
      obtain ⟨next, hstep, -⟩ := handler_critical_enabled hframes hcritical
      exact canAct_handler hfault ⟨next, hstep⟩
  | nil =>
      rw [critical_of_idle hframes] at hcritical
      by_cases hlogging : s.logging thread = .outside
      · have hready : s.Ready thread := ⟨hframes, hlogging⟩
        cases thread with
        | poller i =>
            obtain ⟨next, hstep, -⟩ := @poller_critical_enabled n config s i {} hcritical
            exact canAct_poller hfault hready (queues_of_critical hcritical) ⟨next, hstep⟩
        | monitor =>
            obtain ⟨next, hstep, -⟩ := @monitor_critical_enabled n config s hcritical
            exact canAct_monitor hfault hready (awake_of_critical hcritical) ⟨next, hstep⟩
        | other number => exact absurd hcritical (Nat.lt_irrefl 0)
      · exact canAct_cllog hfault (cllogStep_enabled hcerr hframes hlogging)

/-- If none of these threads can go on, no handler runs, nobody writes to the
log, and the pollers and the monitor have returned, but for the pollers in
`process_queries` and a monitor that waits for time. -/
theorem settled_of_not_canAct (wakes : WakesPending s) (inRange : InRange s)
    (hfault : s.fault = none) (hstop : s.threadStopRequested = true)
    (hstuck : ¬ CanAct config s) :
    (∀ thread, s.Ready thread) ∧
      (s.monitor.pc = .returned ∨ s.monitor.pc.waitsForTime = true) ∧
      ∀ i, (s.pollers i).pc = .returned ∨ (s.pollers i).pc.queues = true := by
  have hcerr : s.cerrLock = none := by
    cases hwriter : s.cerrLock with
    | none => rfl
    | some thread => exact absurd (canAct_writer wakes.cerr hfault hwriter) hstuck
  have hfree : s.globalLock = none := by
    cases howner : s.globalLock with
    | none => rfl
    | some thread => exact absurd (canAct_owner wakes.lock hfault hcerr howner) hstuck
  have hidle : ∀ thread, s.handlers thread = [] := by
    intro thread
    by_contra hframes
    exact hstuck (canAct_handler hfault (handlerStep_enabled hfree hcerr hframes))
  have hready : ∀ thread, s.Ready thread := by
    refine fun thread => ⟨hidle thread, ?_⟩
    by_contra hlogging
    exact hstuck (canAct_cllog hfault (cllogStep_enabled hcerr (hidle thread) hlogging))
  refine ⟨hready, ?_, fun i => ?_⟩
  · by_contra hpc
    obtain ⟨hreturned, hawake⟩ := not_or.mp hpc
    exact hstuck (canAct_monitor hfault (hready _) (Bool.eq_false_of_not_eq_true hawake)
      (monitorStep_enabled hfree hreturned))
  · by_contra hpc
    obtain ⟨hreturned, hqueues⟩ := not_or.mp hpc
    refine hstuck (canAct_poller hfault (hready _) (Bool.eq_false_of_not_eq_true hqueues) ?_)
    refine pollerStep_enabled inRange hfree hreturned fun seen hwaits => ?_
    -- Without a handler no broadcast is pending, so there was one.
    by_contra hunwoken
    obtain ⟨thread, frame, hframe, -⟩ :=
      wakes.pending hstop i seen hwaits (Nat.le_of_not_lt hunwoken)
    rw [hidle thread] at hframe
    exact List.not_mem_nil hframe

end Progress

end ClusteredPoller.Threads
