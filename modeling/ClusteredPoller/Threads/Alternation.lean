import ClusteredPoller.Library.Cycle
import ClusteredPoller.Library.Observation
import ClusteredPoller.Threads.IterationEnd
import ClusteredPoller.Threads.Windows

/-!
# Starts and ends of iterations

`monitor_run` tests for the end of an iteration, and then for the start of one;
only the first test looks at `this_iteration`.  If the last poller finishes
between the two tests, and the next iteration is due, then the old one is never
ended.
-/

namespace ClusteredPoller.Threads

open Library State

inductive IterationEvent where
  /-- `monitor_run` goes into `start_iteration`. -/
  | started
  /-- A step of `end_iteration` that reads for the report or clears. -/
  | did (action : EndAction)
  /-- `end_iteration` has returned. -/
  | ended
  deriving DecidableEq

/-- The report, the reset and the return of `end_iteration`. -/
def endEvents (actions : List EndAction) : List IterationEvent :=
  actions.map IterationEvent.did ++ [.ended]

/-- An iteration that is started, reported, reset and ended. -/
def iterationCycle : List IterationEvent := .started :: endEvents endActions

section Events

variable {n : Nat}

def iterationEvents : Label n → State n → List IterationEvent
  | .monitor, s =>
      match s.monitor.pc with
      | .startTest =>
          if s.activeThreads = 0 ∧ s.monitor.now ≥ s.monitor.nextIteration then [.started] else []
      | .ending (action :: _) => [.did action]
      | .ending [] => if s.monitor.toSleepMs > 0 then [] else [.ended]
      | .endUnlock => [.ended]
      | _ => []
  | _, _ => []

/-- Starts and ends take turns, with a start first, and each end comes with its
report and its reset. -/
def Alternates (events : List IterationEvent) : Prop := Cycle.Repeats iterationCycle events

/-- Where the start test of the monitor passes, `this_iteration` is zero, which the
monitor does not test there, and so is not the time it starts the iteration with. -/
def StartsClosed : Label n → State n → Prop
  | .monitor, s =>
      s.monitor.pc = .startTest → s.activeThreads = 0 → s.monitor.now ≥ s.monitor.nextIteration →
        s.monitor.thisIteration = 0 ∧ s.monitor.now ≠ 0
  | _, _ => True

instance : ∀ (label : Label n) (s : State n), Decidable (StartsClosed label s)
  | .monitor, s =>
      inferInstanceAs
        (Decidable (s.monitor.pc = .startTest → s.activeThreads = 0 →
          s.monitor.now ≥ s.monitor.nextIteration →
            s.monitor.thisIteration = 0 ∧ s.monitor.now ≠ 0))
  | .tick _, _ | .poller _ _, _ | .callsCllog _, _ | .cllog _, _ | .handler _, _
  | .signal _ _, _ => .isTrue trivial

end Events

/-! ## The monitor in its loop -/

/-- What is still to come of the iteration, by the monitor's locals. -/
def MonitorThread.due (monitor : MonitorThread) : List IterationEvent :=
  match monitor.pc with
  | .ending actions => endEvents actions
  | .endLock | .endWait | .timedWaiting | .endRelock | .endUnlock => [.ended]
  | .startCount | .startLock | .startReset | .startBroadcast | .startUnlock =>
      endEvents endActions
  | _ => if monitor.thisIteration = 0 then iterationCycle else endEvents endActions

/-- The events are in turn, and the monitor's locals say what is to come. -/
structure Paced (monitor : MonitorThread) (events : List IterationEvent) : Prop where
  alternates : Alternates events
  upcoming : Cycle.upcoming iterationCycle events = monitor.due
  starting : monitor.pc.inStart = true → monitor.now ≠ 0

/-- The start test passes only when the clock does not stand at zero. -/
def StartsLater {n : Nat} (s : State n) : Prop :=
  s.monitor.pc = .startTest → s.activeThreads = 0 → s.monitor.now ≥ s.monitor.nextIteration →
    s.monitor.now ≠ 0

section Monitor

variable {n : Nat} {config : Rtgconf} {s next : State n} {events : List IterationEvent}
  {monitor monitor' : MonitorThread}

theorem endEvents_ne_nil (actions : List EndAction) : endEvents actions ≠ [] :=
  List.append_ne_nil_of_right_ne_nil _ (List.cons_ne_nil _ _)

/-- A step that shows nothing. -/
theorem Paced.moves (paced : Paced monitor events) (hdue : monitor'.due = monitor.due)
    (hstarting : monitor'.pc.inStart = true → monitor'.now ≠ 0) : Paced monitor' events :=
  ⟨paced.alternates, paced.upcoming.trans hdue.symm, hstarting⟩

/-- A step that shows nothing, and leads out of `start_iteration` if anywhere. -/
theorem Paced.passes (paced : Paced monitor events) (hdue : monitor'.due = monitor.due)
    (hpc : monitor'.pc.inStart = false) : Paced monitor' events :=
  paced.moves hdue fun impossible => absurd impossible (hpc ▸ Bool.false_ne_true)

/-- A step that shows what is due. -/
theorem Paced.shows {event : IterationEvent} {more : List IterationEvent}
    (paced : Paced monitor events) (hdue : monitor.due = event :: more)
    (hafter : monitor'.due = if more = [] then iterationCycle else more)
    (hstarting : monitor'.pc.inStart = true → monitor'.now ≠ 0) :
    Paced monitor' (events ++ [event]) := by
  have hupcoming := paced.upcoming.trans hdue
  refine ⟨Cycle.repeats_append_singleton.mpr ⟨paced.alternates, ?_⟩, ?_, hstarting⟩
  · rw [hupcoming]
    rfl
  · rw [Cycle.upcoming_append hupcoming, hafter]

/-- The same out of `start_iteration`. -/
theorem Paced.ends {event : IterationEvent} {more : List IterationEvent}
    (paced : Paced monitor events) (hdue : monitor.due = event :: more)
    (hafter : monitor'.due = if more = [] then iterationCycle else more)
    (hpc : monitor'.pc.inStart = false) : Paced monitor' (events ++ [event]) :=
  paced.shows hdue hafter fun impossible => absurd impossible (hpc ▸ Bool.false_ne_true)

/-- A step of the monitor in which the condition is met. -/
theorem Paced.step (paced : Paced s.monitor events) (hguard : StartsClosed .monitor s)
    (hstep : monitorStep config s = some next) :
    Paced next.monitor (events ++ iterationEvents .monitor s) := by
  obtain ⟨pc, hpc, move⟩ := monitorStep_move hstep
  have hbefore : s.monitor.due = { s.monitor with pc := pc }.due := by rw [← hpc]
  rw [iterationEvents, hpc]
  cases move with
  | starts hactive htime =>
      obtain ⟨hclosed, hnow⟩ := hguard hpc hactive htime
      dsimp only
      rw [if_pos ⟨hactive, htime⟩]
      refine paced.shows (hbefore.trans (if_pos hclosed)) ?_ fun _ => hnow
      exact (if_neg (endEvents_ne_nil endActions)).symm
  | passes htest =>
      dsimp only
      rw [if_neg htest, List.append_nil]
      exact paced.passes hbefore.symm rfl
  | schedules =>
      rw [List.append_nil]
      refine paced.passes (Eq.trans ?_ hbefore.symm) rfl
      exact if_neg (paced.starting (by rw [hpc]; rfl))
  | ends hactive hstarted =>
      rw [List.append_nil]
      exact paced.passes (hbefore.trans (if_neg hstarted)).symm rfl
  | acts action actions =>
      refine paced.ends hbefore (Eq.trans ?_ (if_neg (endEvents_ne_nil actions)).symm) rfl
      cases action with
      | readClock | readFinished | read | clear => rfl
  | early htime =>
      dsimp only
      rw [if_pos htime, List.append_nil]
      exact paced.passes hbefore.symm rfl
  | late htime =>
      dsimp only
      rw [if_neg htime]
      exact paced.ends hbefore rfl rfl
  | endUnlocks => exact paced.ends hbefore rfl rfl
  | counts | startLocks | resets | broadcasts =>
      rw [List.append_nil]
      exact paced.moves hbefore.symm fun _ => paced.starting (by rw [hpc]; rfl)
  | _ =>
      rw [List.append_nil]
      exact paced.passes hbefore.symm rfl

end Monitor

/-! ## The steps of the system -/

section Steps

variable {n : Nat} {config : Rtgconf} {label : Label n} {s next : State n}

/-- A step of another thread. -/
theorem Paced.unmoved {events : List IterationEvent} (paced : Paced s.monitor events)
    (hevents : iterationEvents label s = []) (hmonitor : next.monitor = s.monitor) :
    Paced next.monitor (events ++ iterationEvents label s) := by
  rw [hevents, List.append_nil, hmonitor]
  exact paced

theorem paced_step {events : List IterationEvent} (paced : Paced s.monitor events)
    (hguard : StartsClosed label s) (hstep : step config label s = some next) :
    Paced next.monitor (events ++ iterationEvents label s) := by
  obtain ⟨-, effect⟩ := step_effect hstep
  cases effect with
  | ticks ms hnext => exact paced.unmoved rfl (by rw [hnext])
  | polls i meets _ _ _ houtside => exact paced.unmoved rfl (congrArg Outside.monitor houtside)
  | monitors _ hmonitor => exact paced.step hguard hmonitor
  | handles thread _ effect => exact paced.unmoved rfl effect.monitor
  | calls _ _ _ hnext | logs _ _ _ _ hnext | signals _ _ _ hnext =>
      exact paced.unmoved rfl (by rw [hnext])

theorem paced_start {hosts : List Poller.Queryhost} {clock : Nat} {nextIteration : Int}
    {statistics : Statistics} :
    Paced (State.start hosts clock nextIteration statistics : State n).monitor [] :=
  ⟨Cycle.repeats_nil, Cycle.upcoming_nil, nofun⟩

/-- A start that finds an open iteration breaks the turns. -/
theorem not_alternates_of_open {events : List IterationEvent} (paced : Paced s.monitor events)
    (hlater : StartsLater s) (hguard : ¬ StartsClosed label s) :
    ¬ Alternates (events ++ iterationEvents label s) := by
  cases label with
  | monitor =>
      intro alternates
      refine hguard fun hpc hactive hdue => ⟨?_, hlater hpc hactive hdue⟩
      by_contra hthis
      have hopen : s.monitor.due = endEvents endActions := by
        rw [MonitorThread.due, hpc]
        exact if_neg hthis
      rw [iterationEvents, hpc] at alternates
      dsimp only at alternates
      rw [if_pos ⟨hactive, hdue⟩] at alternates
      have hnext := (Cycle.repeats_append_singleton.mp alternates).2
      rw [paced.upcoming, hopen] at hnext
      cases hnext
  | tick | poller | callsCllog | cllog | handler | signal => exact absurd trivial hguard

/-- Some start found an open iteration, or some end none. -/
def Broken (o : Observed (State n) IterationEvent) : Prop := ¬ Alternates o.events

/-- The clock does not stand at zero, and did not when the monitor read it. -/
def ClockRuns (s : State n) : Prop :=
  0 < s.clock ∧ (s.monitor.pc = .startTest → s.monitor.now ≠ 0)

theorem ClockRuns.startsLater (runs : ClockRuns s) : StartsLater s :=
  fun hpc _ _ => runs.2 hpc

theorem ClockRuns.step (runs : ClockRuns s) (hstep : step config label s = some next) :
    ClockRuns next := by
  obtain ⟨-, effect⟩ := step_effect hstep
  cases effect with
  | ticks ms hnext =>
      subst hnext
      exact ⟨Nat.add_pos_left runs.1 ms, runs.2⟩
  | polls i meets _ _ effect houtside =>
      have hmonitor : next.monitor = s.monitor := congrArg Outside.monitor houtside
      rw [ClockRuns, effect.clock, hmonitor]
      exact runs
  | monitors _ hmonitor =>
      obtain ⟨htimes, hclock⟩ := monitorStep_time hmonitor
      refine ⟨hclock ▸ runs.1, fun hpc => ?_⟩
      cases htimes with
      | reads _ _ hnow =>
          rw [hnow]
          exact Int.natCast_ne_zero.mpr runs.1.ne'
      | starts _ hafter => rw [hafter] at hpc; cases hpc
      | passes _ hafter => rw [hafter] at hpc; cases hpc
      | starting _ hafter => rw [hpc] at hafter; cases hafter
      | schedules _ hafter => rw [hafter] at hpc; cases hpc
      | other _ _ hafter => exact absurd hpc hafter
  | handles thread _ effect =>
      have hclock : next.clock = s.clock := congrArg Shared.clock effect.shared
      rw [ClockRuns, effect.monitor, hclock]
      exact runs
  | calls _ _ _ hnext | logs _ _ _ _ hnext | signals _ _ _ hnext =>
      subst hnext
      exact runs

/-- As long as the turns are kept, the monitor's locals say what is to come. -/
theorem pacedUnlessBroken_keeps (config : Rtgconf) :
    Transition.Keeps (Observed.step (step config) iterationEvents) (fun _ _ => True)
      fun o : Observed (State n) IterationEvent =>
        ClockRuns o.state ∧ (Alternates o.events → Paced o.state.monitor o.events) := by
  intro label o next _ both hstep
  obtain ⟨hmake, hevents⟩ := Observed.step_eq_some.mp hstep
  refine ⟨both.1.step hmake, fun alternates => ?_⟩
  rw [hevents] at alternates ⊢
  have paced := both.2 alternates.of_append
  refine paced_step paced ?_ hmake
  by_contra hguard
  exact not_alternates_of_open paced both.1.startsLater hguard alternates

end Steps

/-! ## All runs -/

section Runs

variable {n : Nat} {config : Rtgconf} {labels : List (Label n)}
  {final : Observed (State n) IterationEvent}

/-- The monitor starts and ends iterations in turn if `this_iteration` is zero
whenever its start test passes; and if the clock does not begin at zero, only
then. -/
theorem iterations_alternate_iff {hosts : List Poller.Queryhost} {clock : Nat}
    {nextIteration : Int} {statistics : Statistics}
    (hrun : Transition.run (Observed.step (step config) iterationEvents) labels
      (Observed.begin (State.start hosts clock nextIteration statistics)) = some final) :
    (Transition.Guarded (step config) StartsClosed labels
        (State.start hosts clock nextIteration statistics) → Alternates final.events) ∧
      (0 < clock → Alternates final.events →
        Transition.Guarded (step config) StartsClosed labels
          (State.start hosts clock nextIteration statistics)) := by
  have hguarded := @Observed.guarded_iff _ _ _ (step config) iterationEvents StartsClosed labels
    (Observed.begin (State.start hosts clock nextIteration statistics : State n))
  constructor
  · intro guarded
    have keeps : Transition.Keeps (Observed.step (step config) iterationEvents)
        (fun label o => StartsClosed label o.state)
        (fun o : Observed (State n) IterationEvent => Paced o.state.monitor o.events) := by
      intro label o next hguard paced hstep
      obtain ⟨hmake, hevents⟩ := Observed.step_eq_some.mp hstep
      rw [hevents]
      exact paced_step paced hguard hmake
    exact (keeps.run (hguarded.mpr guarded) paced_start hrun).alternates
  · intro hclock alternates
    have hwhole : ¬ Broken final := not_not.mpr alternates
    refine hguarded.mp (Transition.guarded_of_unmarked (pacedUnlessBroken_keeps config) ?_ ?_
      ⟨⟨hclock, nofun⟩, fun _ => paced_start⟩ hrun hwhole)
    · intro label o next _ hbroken hstep
      rw [Broken, (Observed.step_eq_some.mp hstep).2]
      exact fun alternates => hbroken alternates.of_append
    · intro label o next both hguard hstep
      rw [Broken, (Observed.step_eq_some.mp hstep).2]
      intro alternates
      exact not_alternates_of_open (both.2 alternates.of_append) both.1.startsLater hguard
        alternates

/-- The iteration of `completeRun` is ended, and the next one starts. -/
def endedInTime : List (Label 1) := completeRun ++ monitorSteps 26

theorem iterations_alternate_iff_endedInTime :
    ∃ final, Transition.run (Observed.step (step defaultRtgconf) iterationEvents) endedInTime
        (Observed.begin (State.start oneCounter 299650 0 Statistics.initial)) = some final ∧
      final.events = iterationCycle ++ [.started] ∧
      (Transition.Guarded (step defaultRtgconf) StartsClosed endedInTime
          (State.start oneCounter 299650 0 Statistics.initial) → Alternates final.events) ∧
      (0 < 299650 → Alternates final.events →
        Transition.Guarded (step defaultRtgconf) StartsClosed endedInTime
          (State.start oneCounter 299650 0 Statistics.initial)) :=
  ⟨_, rfl, rfl, iterations_alternate_iff (rfl :
    Transition.run (Observed.step (step defaultRtgconf) iterationEvents) endedInTime
      (Observed.begin (State.start oneCounter 299650 0 Statistics.initial)) = some _)⟩

/-- The poller is still active when the monitor tests for the end, and finishes
before the monitor tests for the start; the next iteration is due by then. -/
def overrun : List (Label 1) :=
  pollerSteps onlyPoller 5 ++ [.tick 250] ++ monitorSteps 9 ++ pollerSteps onlyPoller 6 ++
    [.tick 250] ++ monitorSteps 2 ++ pollerSteps onlyPoller 21 ++ monitorSteps 3

/-- An iteration that overruns is never ended. -/
theorem overrun_not_ended :
    (∀ thread signal, Label.signal thread signal ∉ overrun) ∧
    ∃ final, Transition.run (Observed.step (step defaultRtgconf) iterationEvents) overrun
        (Observed.begin (State.start oneCounter 299650 0 Statistics.initial)) = some final ∧
      final.events = [.started, .started] ∧ ¬ Alternates final.events := by
  refine ⟨?_, _, rfl, rfl, ?_⟩
  · intro thread signal
    simp [overrun, pollerSteps, monitorSteps]
  · exact fun alternates => absurd (alternates 1 Nat.one_lt_two) (by decide)

end Runs

end ClusteredPoller.Threads
