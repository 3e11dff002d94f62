import ClusteredPoller.RunThreads.Work
import ClusteredPoller.Threads.Progress

/-!
# A stop request comes to its end

After a stop request the threads make only so many steps, and unless the program
is at its end some thread can always make one, or only has to sleep until then.
So `run_threads` returns, however the threads take turns, if no wakeup is lost
and no handler waits for its own thread.
-/

namespace ClusteredPoller.RunThreads

open Library Library.Transition
open Threads (CanAct InRange ThreadId WakesPending)

section Definitions

variable {n m : Nat}

/-- The step is one by which no thread is stranded. -/
def StopsCleanly : Label n m → Program n m → Prop
  | .threads label, s => Threads.StopsCleanly label s.threads
  | _, _ => True

/-- What a thread does by itself, without waiting for time. -/
def Program.acts (s : Program n m) : Label n m → Bool
  | .threads label => s.threads.acts label
  | .database j _ => (s.databases j).pc ≠ .sleep
  | .queries _ _ | .main => true

/-- The step ends a sleep, or a wait with a time limit. -/
def Program.endsSleep (s : Program n m) : Label n m → Bool
  | .threads .monitor => s.threads.monitor.pc.waitsForTime
  | .database j _ => (s.databases j).pc = .sleep
  | _ => false

/-- Some thread can make a step, without waiting for time. -/
def SomeActs (config : Rtgconf) (s : Program n m) : Prop :=
  ∃ label, s.acts label = true ∧ (step config label s).isSome = true

/-- Some thread only has to wait until its time is up. -/
def SomeSleeps (config : Rtgconf) (s : Program n m) : Prop :=
  ∃ label, s.endsSleep label = true ∧ (step config label s).isSome = true

/-- Where the threads are, in a run in which no thread is stranded. -/
structure Running (s : Program n m) : Prop where
  wakes : WakesPending s.threads
  inRange : InRange s.threads
  orderly : Orderly s
  handing : Handing s

end Definitions

section Running

variable {n m : Nat} {config : Rtgconf} {s next : Program n m}

/-- A poller goes on from `process_queries` to the statistics. -/
theorem running_queued {i : Fin n} {host round : Nat} {inserts : Poller.Inserts}
    {totals : Threads.QueryTotals} {threads : Threads.State n} (wakes : WakesPending threads)
    (inRange : InRange threads) (hready : threads.Ready (.poller i))
    (hpc : (threads.pollers i).pc = .processing host round (.queueInserts inserts)) :
    WakesPending (threads.goto i (.processing host round (.statsLock totals))) ∧
      InRange (threads.goto i (.processing host round (.statsLock totals))) := by
  obtain ⟨effect, houtside⟩ := Threads.effect_goto
    (.processing host round (.statsLock totals)) hpc (Threads.like_stage (Or.inr rfl))
    (Or.inl rfl) rfl rfl rfl
  have lock := @Threads.lockSound_own n threads _ _ wakes.lock hready.1
    (Threads.lockStep_outside (.processing host round (.statsLock totals)) hpc rfl rfl rfl)
    rfl fun other hother => by
      cases other with
      | poller j =>
          have hij : j ≠ i := fun hsame => hother (congrArg ThreadId.poller hsame)
          exact congrArg (fun poller : Threads.PollerThread => poller.pc.critical)
            (Function.update_of_ne hij _ _)
      | monitor | other => rfl
  have clean : Threads.StopsCleanly (.poller i {}) threads := by
    intro hwaits
    cases hpc.symm.trans hwaits
  have cerr := Threads.cerrSound_congr (congrArg Threads.Outside.cerrLock houtside)
    (congrArg Threads.Outside.logging houtside) (congrArg Threads.Outside.handlers houtside)
    wakes.cerr
  exact ⟨Threads.wakesPending_polls clean wakes lock cerr effect houtside, inRange.polls effect⟩

theorem queries_ready {i : Fin n} {garbage : UInt32}
    (hstep : step config (.queries i garbage : Label n m) s = some next) :
    s.threads.Ready (.poller i) := by
  unfold step at hstep
  split at hstep
  · cases hstep
  · dsimp only at hstep
    split at hstep
    · assumption
    · cases hstep

theorem running_keeps (config : Rtgconf) :
    Keeps (step config) StopsCleanly (Running : Program n m → Prop) := by
  intro label s next clean running hstep
  have orderly := running.orderly.step hstep
  have handing := (step_passes running.handing hstep).handing
  cases step_threads hstep with
  | steps label hthreads =>
      exact ⟨Threads.wakesPending_keeps label s.threads next.threads clean running.wakes hthreads,
        running.inRange.step hthreads, orderly, handing⟩
  | queued i garbage host round inserts totals hpc hthreads =>
      obtain ⟨wakes, inRange⟩ : WakesPending next.threads ∧ InRange next.threads := by
        rw [hthreads]
        exact running_queued running.wakes running.inRange (queries_ready hstep) hpc
      exact ⟨wakes, inRange, orderly, handing⟩
  | queues _ _ hthreads | database _ _ hthreads | main hthreads =>
      exact ⟨hthreads ▸ running.wakes, hthreads ▸ running.inRange, orderly, handing⟩

/-! ## Who can go on -/

theorem someActs_of_threads (hrunning : s.faulted = false) (acts : CanAct config s.threads) :
    SomeActs config s := by
  obtain ⟨label, hacts, hclear, hstep⟩ := acts
  refine ⟨.threads label, hacts, ?_⟩
  have hat : s.atInserts label = false := by
    cases label with
    | poller i meets =>
        have hqueues : (s.threads.pollers i).pc.queues = false := (Bool.not_eq_true' _).mp hclear
        unfold Program.atInserts Program.queueing
        dsimp only
        split
        · rename_i hpc
          rw [hpc] at hqueues
          cases hqueues
        · rfl
    | tick | monitor | callsCllog | cllog | handler | signal => rfl
  unfold step
  rw [hrunning, if_neg Bool.false_ne_true]
  dsimp only
  rw [hat, if_neg Bool.false_ne_true, Option.isSome_map]
  exact hstep

/-- Every step of a call of `process_queries` can be made. -/
theorem queriesStep_enabled {i : Fin n} {garbage : UInt32} {memory : Handover.Memory n m}
    {queries : Handover.Queries} (hbusy : queries.pc ≠ .idle) :
    (Handover.queriesStep i garbage memory queries).isSome = true := by
  unfold Handover.queriesStep
  split
  · rename_i hidle
    exact absurd hidle hbusy
  all_goals first | rfl | (split <;> rfl)

theorem not_faulted (hrunning : s.faulted = false) :
    s.threads.fault = none ∧ s.handover.memory.fault = none := by
  unfold Program.faulted at hrunning
  obtain ⟨hthreads, hhandover⟩ := Bool.or_eq_false_iff.mp hrunning
  exact ⟨Option.isNone_iff_eq_none.mp (by rw [← Option.not_isSome, hthreads]; rfl),
    Option.isNone_iff_eq_none.mp (by rw [← Option.not_isSome, hhandover]; rfl)⟩

theorem handover_polls_enabled {h : Handover.State n m} {i : Fin n} {garbage : UInt32}
    (hfault : h.memory.fault = none) (hbusy : (h.pollers i).pc ≠ .idle) :
    (Handover.step config (.poller i garbage) h).isSome = true := by
  unfold Handover.step
  rw [hfault, Option.isSome_none, if_neg Bool.false_ne_true]
  dsimp only
  rw [Option.isSome_map]
  exact queriesStep_enabled hbusy

theorem someActs_of_queueing {i : Fin n} (hrunning : s.faulted = false)
    (hready : s.threads.Ready (.poller i))
    (hqueues : (s.threads.pollers i).pc.queues = true) : SomeActs config s := by
  refine ⟨.queries i 0, rfl, ?_⟩
  have hfault := (not_faulted hrunning).2
  obtain ⟨inserts, hqueueing⟩ : ∃ inserts, s.queueing i = some inserts := by
    unfold Program.queueing
    cases hpc : (s.threads.pollers i).pc with
    | processing host round stage =>
        cases stage with
        | queueInserts inserts => exact ⟨inserts, rfl⟩
        | _ =>
            rw [hpc] at hqueues
            cases hqueues
    | _ =>
        rw [hpc] at hqueues
        cases hqueues
  unfold step
  rw [hrunning, if_neg Bool.false_ne_true]
  dsimp only
  rw [if_pos hready, hqueueing, Option.bind_some]
  unfold Program.queriesStep Program.handoverStep
  split
  · rename_i hat
    rw [Option.isSome_map]
    unfold Handover.step
    rw [hfault, Option.isSome_none, if_neg Bool.false_ne_true]
    dsimp only
    rw [if_pos hat]
    split <;> rfl
  · rename_i depth hat
    have hbusy : (s.handover.pollers i).pc ≠ .idle := by
      rw [hat]
      nofun
    rw [Option.isSome_map]
    unfold Program.finishQueries
    split
    · exact handover_polls_enabled hfault hbusy
    · exact handover_polls_enabled hfault hbusy
  · rename_i hbusy _
    rw [Option.isSome_map]
    exact handover_polls_enabled hfault hbusy

/-- Every step of a function that drains the queue can be made, with an insert
in hand that was allocated. -/
theorem drainStep_enabled {j : Fin m} {memory : Handover.Memory n m}
    {draining : Handover.Draining} (hbusy : draining.pc ≠ .idle)
    (hheld : ∀ insert ∈ draining.held, insert < memory.inserts.length) :
    (Handover.drainStep config j true memory draining).isSome = true := by
  unfold Handover.drainStep
  split
  · rename_i hidle
    exact absurd hidle hbusy
  case h_4 insert hpc =>
    have hinsert : insert < memory.inserts.length := by
      refine hheld insert ?_
      rw [Handover.Draining.held, hpc]
      exact List.mem_singleton_self insert
    rw [List.getElem?_eq_getElem hinsert]
    rfl
  all_goals first | rfl | (split <;> rfl)

theorem database_enabled {j : Fin m} (running : Running s) (hrunning : s.faulted = false)
    (hready : s.threads.Ready (.other (j + 1))) (hpc : (s.databases j).pc ≠ .returned) :
    (step config (.database j {}) s).isSome = true := by
  have hfault := (not_faulted hrunning).2
  unfold step
  rw [hrunning, if_neg Bool.false_ne_true]
  dsimp only
  rw [if_pos hready]
  unfold Program.databaseStep
  cases hat : (s.databases j).pc with
  | call =>
      rw [Program.databaseStepAt, Program.handoverStep, Option.isSome_map]
      unfold Handover.step
      have hdrain : (s.handover.databases j).pc = .idle := by
        refine running.orderly.idle j fun hdraining => ?_
        cases hat.symm.trans hdraining
      change (if s.handover.memory.fault.isSome = true then none else _).isSome = true
      rw [hfault, Option.isSome_none, if_neg Bool.false_ne_true]
      exact congrArg Option.isSome (if_pos hdrain)
  | draining =>
      rw [Program.databaseStepAt]
      split
      · rfl
      · rename_i hbusy
        unfold Program.handoverStep Handover.step
        rw [Option.isSome_map, hfault, Option.isSome_none, if_neg Bool.false_ne_true]
        dsimp only
        rw [Option.isSome_map]
        refine drainStep_enabled hbusy fun insert hinsert => ?_
        exact running.orderly.accounted.insertsAccounted.allocated insert (.held j) hinsert
  | returned => exact absurd hat hpc
  | loopTest | connect | ping | sleep | closing => rfl

theorem someActs_of_main (hrunning : s.faulted = false)
    (hready : s.threads.Ready (.other 0))
    (hdatabases : ∀ j, (s.databases j).pc = .returned)
    (hpollers : ∀ i, (s.threads.pollers i).pc = .returned)
    (hmonitor : s.threads.monitor.pc = .returned) (hmain : s.main ≠ .freeQueue) :
    SomeActs config s := by
  refine ⟨.main, rfl, ?_⟩
  unfold step
  rw [hrunning, if_neg Bool.false_ne_true]
  dsimp only
  rw [if_pos hready]
  unfold Program.mainStep
  cases hat : s.main with
  | joinDatabases => exact congrArg Option.isSome (if_pos hdatabases)
  | joinPollers => exact congrArg Option.isSome (if_pos hpollers)
  | joinMonitor => exact congrArg Option.isSome (if_pos hmonitor)
  | freeQueue => exact absurd hat hmain

/-- A sleep of the monitor can end. -/
theorem someSleeps_of_monitor (hrunning : s.faulted = false) (hready : s.threads.Ready .monitor)
    (hsleeps : s.threads.monitor.pc.waitsForTime = true) : SomeSleeps config s := by
  refine ⟨.threads .monitor, hsleeps, ?_⟩
  have hfault := (not_faulted hrunning).1
  unfold step
  rw [hrunning, if_neg Bool.false_ne_true]
  dsimp only
  rw [if_neg (show s.atInserts .monitor ≠ true from Bool.false_ne_true), Option.isSome_map,
    Threads.step_monitor hfault hready, Threads.monitorStep]
  cases hpc : s.threads.monitor.pc with
  | initialSleep | sleep | timedWaiting => rfl
  | _ =>
      rw [hpc] at hsleeps
      cases hsleeps

/-- After a stop request some thread can always go on, or will when its time is
up, until the end. -/
theorem ends_or_acts (running : Running s) (hstop : s.threads.threadStopRequested = true) :
    s.faulted = true ∨ s.main = .freeQueue ∨ SomeActs config s ∨ SomeSleeps config s := by
  by_contra hnone
  obtain ⟨hfaulted, hnone⟩ := not_or.mp hnone
  obtain ⟨hmain, hnone⟩ := not_or.mp hnone
  obtain ⟨hstuck, hawake⟩ := not_or.mp hnone
  have hrunning := Bool.eq_false_of_not_eq_true hfaulted
  obtain ⟨hready, hmonitor, hpollers⟩ := Threads.settled_of_not_canAct running.wakes
    running.inRange (not_faulted hrunning).1 hstop fun acts =>
      hstuck (someActs_of_threads hrunning acts)
  have hreturned : ∀ i, (s.threads.pollers i).pc = .returned := fun i =>
    (hpollers i).resolve_right fun hqueues =>
      hstuck (someActs_of_queueing hrunning (hready _) hqueues)
  have hdatabases : ∀ j, (s.databases j).pc = .returned := by
    intro j
    by_contra hpc
    have henabled := @database_enabled n m config s j running hrunning (hready _) hpc
    by_cases hsleep : (s.databases j).pc = .sleep
    · exact hawake ⟨.database j {}, decide_eq_true hsleep, henabled⟩
    · exact hstuck ⟨.database j {}, decide_eq_true hsleep, henabled⟩
  have hmonitor' : s.threads.monitor.pc = .returned :=
    hmonitor.resolve_right fun hsleeps =>
      hawake (someSleeps_of_monitor hrunning (hready _) hsleeps)
  exact hstuck (someActs_of_main hrunning (hready _) hdatabases hreturned hmonitor' hmain)

end Running

/-! ## All runs -/

section Runs

variable {n m : Nat} {config : Rtgconf} {hosts : List Poller.Queryhost} {clock : Nat}
  {nextIteration : Int} {statistics : Threads.Statistics}

/-- Only finitely many threads ever run a handler or call `cllog`. -/
theorem aside_keeps (config : Rtgconf) :
    Keeps (step config) (fun _ _ => True) fun s : Program n m =>
      ∃ aside : Finset (ThreadId n), ∀ thread, thread ∉ aside → s.threads.Ready thread := by
  classical
  rintro label s next - ⟨aside, hready⟩ hstep
  have same : next.threads.Ready = s.threads.Ready →
      ∃ aside : Finset (ThreadId n), ∀ thread, thread ∉ aside → next.threads.Ready thread := by
    intro hsame
    rw [hsame]
    exact ⟨aside, hready⟩
  cases step_threads hstep with
  | steps label hthreads =>
      obtain ⟨-, effect⟩ := Threads.step_effect hthreads
      cases effect with
      | signals thread signal _ hnext | calls thread _ _ hnext =>
          refine ⟨insert thread aside, fun other hother => ?_⟩
          rw [Finset.mem_insert, not_or] at hother
          obtain ⟨hidle, hlogging⟩ := hready other hother.2
          rw [hnext]
          first
            | exact ⟨(Function.update_of_ne hother.1 _ _).trans hidle, hlogging⟩
            | exact ⟨hidle, (Function.update_of_ne hother.1 _ _).trans hlogging⟩
      | _ =>
          exact ⟨aside, fun thread hthread =>
            ready_step rfl (by simp) hthreads (hready thread hthread)⟩
  | queued _ _ _ _ _ _ _ hthreads =>
      refine same ?_
      rw [hthreads]
      rfl
  | queues _ _ hthreads | database _ _ hthreads | main hthreads => exact same (by rw [hthreads])

theorem running_start (hqueue : 0 < config.maxDbQueue.toNat) :
    Running (Program.start config hqueue hosts clock nextIteration statistics : Program n m) :=
  ⟨Threads.wakesPending_start hosts clock nextIteration statistics, nofun, orderly_start hqueue,
    ⟨fun _ => Threads.packed_of_none rfl, fun _ hbusy => absurd rfl hbusy, nofun⟩⟩

/-- After a stop request the number of steps is bounded, but for the two of each
further call of `cllog`.  As long as the main thread has not come to free the
queue there is a step to make, now or when some thread has slept long enough,
unless a fault ends the program. -/
theorem stop_completes (hqueue : 0 < config.maxDbQueue.toNat) {labels : List (Label n m)}
    {stopped : Program n m}
    (clean : Guarded (step config) StopsCleanly labels
      (Program.start config hqueue hosts clock nextIteration statistics))
    (hrun : run (step config) labels
      (Program.start config hqueue hosts clock nextIteration statistics) = some stopped)
    (hstop : stopped.threads.threadStopRequested = true) :
    ∃ bound, ∀ more final, (∀ label ∈ more, label.isSignal = false) →
      Guarded (step config) StopsCleanly more stopped →
      run (step config) more stopped = some final →
      more.countP Label.works ≤ bound + 2 * more.countP Label.calls ∧
        (final.faulted = true ∨ final.main = .freeQueue ∨ SomeActs config final ∨
          SomeSleeps config final) := by
  classical
  have running := (running_keeps config).run clean (running_start hqueue) hrun
  obtain ⟨aside, hready⟩ := (aside_keeps config).run
    (guarded_of_labels (fun _ _ _ => trivial) _) ⟨∅, fun _ _ => ⟨rfl, rfl⟩⟩ hrun
  let rows := (Threads.rowCounts stopped.threads.hosts).sum
  have stopping : Stopping rows aside stopped := by
    refine ⟨hstop, Threads.rowsWithin_iff.mpr fun count hcount => ?_, hready,
      running.orderly, running.handing⟩
    exact List.le_sum_of_mem hcount
  refine ⟨stopped.work rows aside, fun more final hsignals hclean hmore => ?_⟩
  -- The threads that call `cllog` from now on had nothing to do there before.
  let aside' := aside ∪ (more.filterMap Label.caller).toFinset
  have hsubset : aside ⊆ aside' := Finset.subset_union_left
  have hquiet : ∀ label ∈ more, label.Quiet aside' := by
    refine fun label hlabel => ⟨hsignals label hlabel, fun thread hthread => ?_⟩
    refine Finset.mem_union_right _ (List.mem_toFinset.mpr ?_)
    exact List.mem_filterMap.mpr ⟨label, hlabel, hthread⟩
  have stopping' := stopping.mono hsubset
  constructor
  · rw [← stopping.work_mono hsubset]
    refine Nat.le_trans (Nat.le_add_right _ (final.work rows aside'))
      (Work.work_bounded (Program.work rows aside') ?_ hquiet stopping' hmore)
    exact fun label s next hlabel stopping hstep =>
      ⟨stopping.step hlabel hstep, step_work stopping hlabel hstep⟩
  · have stops : Keeps (step config) (fun label _ => label.Quiet aside')
        (Stopping rows aside' : Program n m → Prop) :=
      fun label s next hlabel stopping hstep => stopping.step hlabel hstep
    have later := stops.run (guarded_of_labels (fun label hlabel _ => hquiet label hlabel) _)
      stopping' hmore
    exact ends_or_acts ((running_keeps config).run hclean running hmore) later.stop

end Runs

/-! ## A hangup while a host is polled -/

section Hangup

variable {n m : Nat}

/-- All pollers that wait began to wait before the stop. -/
def WaitsBeforeStop : Label n m → Program n m → Prop
  | .threads label, s => Threads.WaitsBeforeStop label s.threads
  | _, _ => True

instance (label : Label n m) (s : Program n m) : Decidable (WaitsBeforeStop label s) :=
  match label with
  | .threads label => inferInstanceAs (Decidable (Threads.WaitsBeforeStop label s.threads))
  | .queries _ _ | .database _ _ | .main => .isTrue trivial

theorem WaitsBeforeStop.stopsCleanly (label : Label n m) (s : Program n m)
    (before : WaitsBeforeStop label s) : StopsCleanly label s := by
  cases label with
  | threads label => exact Threads.WaitsBeforeStop.stopsCleanly label s.threads before
  | queries | database | main => trivial

/-- The poller has its inserts in hand when the signal arrives. -/
theorem stop_completes_hangup :
    ∃ stopped, run (step smallestQueue) (upToQueries ++ hangup) gaugeStart = some stopped ∧
      ∃ bound, ∀ more final, (∀ label ∈ more, label.isSignal = false) →
        Guarded (step smallestQueue) StopsCleanly more stopped →
        run (step smallestQueue) more stopped = some final →
        more.countP Label.works ≤ bound + 2 * more.countP Label.calls ∧
          (final.faulted = true ∨ final.main = .freeQueue ∨ SomeActs smallestQueue final ∨
            SomeSleeps smallestQueue final) := by
  have clean : Guarded (step smallestQueue) WaitsBeforeStop (upToQueries ++ hangup) gaugeStart := by
    decide +kernel
  have hstopped : (run (step smallestQueue) (upToQueries ++ hangup) gaugeStart).map
      (fun stopped => stopped.threads.threadStopRequested) = some true := by
    decide +kernel
  obtain ⟨stopped, hrun, hstop⟩ := Option.map_eq_some_iff.mp hstopped
  exact ⟨stopped, hrun,
    stop_completes (by decide) (clean.imp WaitsBeforeStop.stopsCleanly) hrun hstop⟩

end Hangup

end ClusteredPoller.RunThreads
