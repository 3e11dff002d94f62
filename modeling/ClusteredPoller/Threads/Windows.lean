import ClusteredPoller.Cltime
import ClusteredPoller.Library.Windows
import ClusteredPoller.Threads.Shutdown

/-!
# One iteration in each polling interval

The monitor checks now and then whether to start an iteration.  The time of the
next one survives a reload: `run_threads` takes it over from the monitor that
has returned and gives it to the next monitor.
-/

namespace ClusteredPoller.Threads

open State
open Library.Windows (SameWindow nextStart nextStart_le_iff not_sameWindow_of_le)

/-! ## Checks -/

/-- One test of the monitor: the clock that it had read, whether it saw no
active poller, and whether it started an iteration. -/
structure Check where
  now : Int
  noneActive : Bool
  started : Bool
  deriving DecidableEq

section Checks

variable {n : Nat}

/-- The check that a step makes, if it is one. -/
def checkOf (label : Label n) (s next : State n) : List Check :=
  match label with
  | .monitor =>
      if s.monitor.pc = .startTest then
        [{ now := s.monitor.now
           noneActive := s.activeThreads = 0
           started := next.monitor.pc = .startCount }]
      else []
  | _ => []

end Checks

/-- Runs with a polling interval, reloads between them, and the checks that the
monitors have made, the latest one first.  A reload may change everything but
the interval. -/
inductive Reached (interval : UInt32) : {n : Nat} → State n → List Check → Prop where
  | start {n : Nat} (hosts : List Poller.Queryhost) (clock : Nat) (statistics : Statistics) :
      Reached interval (State.start hosts clock 0 statistics : State n) []
  | step {n : Nat} {s next : State n} {checks : List Check} (config : Rtgconf) (label : Label n)
      (reached : Reached interval s checks) (hinterval : config.interval = interval)
      (hstep : step config label s = some next) :
      Reached interval next (checkOf label s next ++ checks)
  | reload {n m : Nat} {s : State n} {checks : List Check} (hosts : List Poller.Queryhost)
      (clock : Nat) (statistics : Statistics) (reached : Reached interval s checks)
      (hreturned : s.monitor.pc = .returned) (hclock : s.clock ≤ clock) :
      Reached interval
        (State.start hosts clock s.monitor.nextIteration statistics : State m) checks

/-- The length of a polling interval in milliseconds. -/
def windowSize (interval : UInt32) : Int := 1000 * interval.toNat

/-- An iteration was started in the window of a time. -/
def StartedInWindow (interval : UInt32) (checks : List Check) (now : Int) : Prop :=
  ∃ check ∈ checks, check.started = true ∧ SameWindow (windowSize interval) check.now now

/-- The property holds of each check with those before it. -/
def EachCheck (holds : List Check → Check → Prop) : List Check → Prop
  | [] => True
  | check :: earlier => holds earlier check ∧ EachCheck holds earlier

/-- What a check should do: never start a second iteration in a window, and if
no poller is active, start the first one. -/
structure ChecksRight (interval : UInt32) (earlier : List Check) (check : Check) : Prop where
  once : check.started = true → ¬ StartedInWindow interval earlier check.now
  first : check.noneActive = true →
    (check.started = true ↔ ¬ StartedInWindow interval earlier check.now)

/-! ## The monitor and the time -/

/-- In `start_iteration`, up to the new `next_iteration`. -/
def MonitorPc.inStart : MonitorPc → Bool
  | .startCount | .startLock | .startReset | .startBroadcast | .startUnlock => true
  | _ => false

section Monitor

variable {n : Nat} {config : Rtgconf} {s next : State n}

/-- What the steps of the monitor do with the times. -/
inductive TimeEffect (config : Rtgconf) (s next : State n) : Prop where
  | reads (hpc : s.monitor.pc = .readClock) (hafter : next.monitor.pc = .startTest)
      (hnow : next.monitor.now = s.clock)
      (hnext : next.monitor.nextIteration = s.monitor.nextIteration)
  | starts (hpc : s.monitor.pc = .startTest) (hafter : next.monitor.pc = .startCount)
      (hactive : s.activeThreads = 0) (htime : s.monitor.nextIteration ≤ s.monitor.now)
      (hnow : next.monitor.now = s.monitor.now)
  | passes (hpc : s.monitor.pc = .startTest) (hafter : next.monitor.pc = .sleep)
      (htest : ¬ (s.activeThreads = 0 ∧ s.monitor.nextIteration ≤ s.monitor.now))
      (hnext : next.monitor.nextIteration = s.monitor.nextIteration)
  | starting (hpc : s.monitor.pc.inStart = true) (hafter : next.monitor.pc.inStart = true)
      (hnow : next.monitor.now = s.monitor.now)
  | schedules (hpc : s.monitor.pc = .startUnlock) (hafter : next.monitor.pc = .sleep)
      (hnext : next.monitor.nextIteration = nextInterval s.monitor.now config.interval)
  | other (hpc : s.monitor.pc ≠ .startTest) (hstart : s.monitor.pc.inStart = false)
      (hafter : next.monitor.pc ≠ .startTest) (hstart' : next.monitor.pc.inStart = false)
      (hnext : next.monitor.nextIteration = s.monitor.nextIteration)

/-- The places where the times play a part in the next step. -/
def MonitorPc.usesTimes : MonitorPc → Bool
  | .startTest => true
  | pc => pc.inStart

theorem MonitorPc.of_usesTimes {pc : MonitorPc} (huses : pc.usesTimes = false) :
    pc ≠ .startTest ∧ pc.inStart = false := by
  constructor
  · rintro rfl
    cases huses
  · cases pc <;> first | rfl | cases huses

theorem timeEffect_other (hpc : s.monitor.pc.usesTimes = false)
    (hafter : next.monitor.pc.usesTimes = false)
    (hnext : next.monitor.nextIteration = s.monitor.nextIteration) :
    TimeEffect config s next :=
  .other (MonitorPc.of_usesTimes hpc).1 (MonitorPc.of_usesTimes hpc).2
    (MonitorPc.of_usesTimes hafter).1 (MonitorPc.of_usesTimes hafter).2 hnext

theorem monitorStep_time (hstep : monitorStep config s = some next) :
    TimeEffect config s next ∧ next.clock = s.clock := by
  obtain ⟨pc, hpc, move⟩ := monitorStep_move hstep
  cases move with
  | readsClock => exact ⟨.reads hpc rfl rfl rfl, rfl⟩
  | starts hactive htime => exact ⟨.starts hpc rfl hactive htime rfl, rfl⟩
  | passes htest => exact ⟨.passes hpc rfl htest rfl, rfl⟩
  | counts | startLocks | resets | broadcasts =>
      exact ⟨.starting (by rw [hpc]; rfl) rfl rfl, rfl⟩
  | schedules => exact ⟨.schedules hpc rfl rfl, rfl⟩
  | acts action actions =>
      cases action with
      | readClock | readFinished | read | clear =>
          exact ⟨timeEffect_other (by rw [hpc]; rfl) rfl rfl, rfl⟩
  | _ => exact ⟨timeEffect_other (by rw [hpc]; rfl) rfl rfl, rfl⟩

end Monitor

/-! ## The time of the next iteration -/

/-- The time of the next iteration is that of the window behind the latest
start, or zero before the first one. -/
def Scheduled (interval : UInt32) (checks : List Check) (time : Int) : Prop :=
  (time = 0 ∧ ∀ check ∈ checks, check.started = false) ∨
    ∃ latest ∈ checks, latest.started = true ∧ time = nextInterval latest.now interval ∧
      ∀ check ∈ checks, check.started = true → check.now ≤ latest.now

section Times

variable {interval : UInt32} {checks : List Check} {now time : Int}

theorem windowSize_pos (hinterval : interval ≠ 0) : 0 < windowSize interval := by
  have hne : interval.toNat ≠ 0 := fun hzero => hinterval (UInt32.toNat_inj.mp hzero)
  unfold windowSize
  omega

/-- `next_interval` gives the start of the next window. -/
theorem nextInterval_eq (hnow : 0 ≤ now) :
    nextInterval now interval = nextStart (windowSize interval) now := by
  have hseconds : now.tdiv 1000 = now / 1000 := Int.tdiv_eq_ediv_of_nonneg hnow
  have hnonneg : 0 ≤ now / 1000 := Int.ediv_nonneg hnow (by decide)
  rw [nextInterval, nextStart, windowSize, hseconds, Int.tdiv_eq_ediv_of_nonneg hnonneg,
    Int.ediv_ediv_of_nonneg (by decide), Int.mul_comm 1000, Int.mul_assoc]

/-- `next_interval` computes it without overflow if it fits. -/
theorem cltime_nextInterval (hinterval : interval ≠ 0) (hnow : 0 ≤ now)
    (hfits : nextInterval now interval < 2 ^ 63) :
    Cltime.nextInterval now interval = .ok (nextInterval now interval) := by
  have hpos : (1 : Int) ≤ interval.toNat := by
    have hsize := windowSize_pos hinterval
    unfold windowSize at hsize
    omega
  have hseconds : 0 ≤ now.tdiv 1000 := Int.tdiv_nonneg hnow (by decide)
  have hwindow : 0 ≤ (now.tdiv 1000).tdiv interval.toNat := Int.tdiv_nonneg hseconds (by omega)
  have hms : 1000 * ((now.tdiv 1000).tdiv interval.toNat + 1) ≤ nextInterval now interval :=
    le_mul_of_one_le_right (by omega) hpos
  have hnext : Cltime.longLong ((now.tdiv 1000).tdiv interval.toNat + 1) =
      .ok ((now.tdiv 1000).tdiv interval.toNat + 1) :=
    Cltime.longLong_ok (by omega) (by omega)
  have hproduct : Cltime.longLong (1000 * ((now.tdiv 1000).tdiv interval.toNat + 1)) =
      .ok (1000 * ((now.tdiv 1000).tdiv interval.toNat + 1)) :=
    Cltime.longLong_ok (by omega) (by omega)
  rw [Cltime.nextInterval, if_neg hinterval, hnext]
  change (Cltime.longLong _ >>= fun ms => Cltime.longLong (ms * interval.toNat)) = _
  rw [hproduct]
  have hnonneg : 0 ≤ nextInterval now interval := by omega
  exact Cltime.longLong_ok (Int.le_trans (by decide) hnonneg) hfits

/-- The time of the next iteration has come exactly if none has been started in
the window. -/
theorem scheduled_le_iff (hinterval : interval ≠ 0) (hscheduled : Scheduled interval checks time)
    (hnow : 0 ≤ now) (hchecks : ∀ check ∈ checks, 0 ≤ check.now ∧ check.now ≤ now) :
    time ≤ now ↔ ¬ StartedInWindow interval checks now := by
  have hsize := windowSize_pos hinterval
  rcases hscheduled with ⟨rfl, hnone⟩ | ⟨latest, hlatest, hstarted, rfl, hbefore⟩
  · refine iff_of_true hnow ?_
    rintro ⟨check, hcheck, hstarted, -⟩
    rw [hnone check hcheck] at hstarted
    cases hstarted
  · obtain ⟨hnonneg, hle⟩ := hchecks latest hlatest
    rw [nextInterval_eq hnonneg, nextStart_le_iff hsize hle]
    constructor
    · rintro hother ⟨check, hcheck, hcheckStarted, hsame⟩
      exact not_sameWindow_of_le hsize (hbefore check hcheck hcheckStarted) hle hother hsame
    · exact fun hnone hsame => hnone ⟨latest, hlatest, hstarted, hsame⟩

end Times

/-! ## The invariant -/

structure Timely (interval : UInt32) {n : Nat} (s : State n) (checks : List Check) : Prop where
  past : ∀ check ∈ checks, 0 ≤ check.now ∧ check.now ≤ s.clock
  read : s.monitor.pc = .startTest → 0 ≤ s.monitor.now ∧ s.monitor.now ≤ s.clock ∧
    ∀ check ∈ checks, check.now ≤ s.monitor.now
  scheduled : s.monitor.pc.inStart = false → Scheduled interval checks s.monitor.nextIteration
  /-- While an iteration is being started, the latest check has started it. -/
  starting : s.monitor.pc.inStart = true → ∃ check ∈ checks, check.started = true ∧
    check.now = s.monitor.now ∧ ∀ other ∈ checks, other.now ≤ s.monitor.now

section Invariant

variable {interval : UInt32} {n : Nat} {s next : State n} {checks : List Check}

/-- Steps that leave the monitor alone. -/
theorem Timely.unmoved (timely : Timely interval s checks) (hmonitor : next.monitor = s.monitor)
    (hclock : s.clock ≤ next.clock) : Timely interval next checks := by
  have hle : (s.clock : Int) ≤ next.clock := Int.ofNat_le.mpr hclock
  constructor
  · intro check hcheck
    obtain ⟨hnonneg, hpast⟩ := timely.past check hcheck
    exact ⟨hnonneg, Int.le_trans hpast hle⟩
  · rw [hmonitor]
    intro hpc
    obtain ⟨hnonneg, hpast, hbefore⟩ := timely.read hpc
    exact ⟨hnonneg, Int.le_trans hpast hle, hbefore⟩
  · rw [hmonitor]
    exact timely.scheduled
  · rw [hmonitor]
    exact timely.starting

theorem checkOf_eq_nil {label : Label n} (hpc : s.monitor.pc ≠ .startTest) :
    checkOf label s next = [] := by
  unfold checkOf
  split
  · rw [if_neg hpc]
  · rfl

theorem checkOf_monitor (hpc : s.monitor.pc = .startTest) :
    checkOf .monitor s next =
      [{ now := s.monitor.now
         noneActive := s.activeThreads = 0
         started := next.monitor.pc = .startCount }] := if_pos hpc

/-- A step of the monitor that is no check. -/
theorem Timely.moves {config : Rtgconf} (timely : Timely interval s checks)
    (hconfig : config.interval = interval) (hpc : s.monitor.pc ≠ .startTest)
    (effect : TimeEffect config s next) (hclock : next.clock = s.clock) :
    Timely interval next checks := by
  have hpast : ∀ check ∈ checks, 0 ≤ check.now ∧ check.now ≤ next.clock := by
    rw [hclock]
    exact timely.past
  cases effect with
  | reads hbefore hafter hnow hnext =>
      have hscheduled := timely.scheduled (by rw [hbefore]; rfl)
      refine ⟨hpast, fun _ => ?_, fun _ => hnext ▸ hscheduled, fun hstart => ?_⟩
      · rw [hnow, hclock]
        exact ⟨Int.natCast_nonneg _, Int.le_refl _, fun check hcheck =>
          (timely.past check hcheck).2⟩
      · rw [hafter] at hstart
        cases hstart
  | starts hbefore => exact absurd hbefore hpc
  | passes hbefore => exact absurd hbefore hpc
  | starting hbefore hafter hnow =>
      refine ⟨hpast, fun htest => ?_, fun hstart => ?_, fun _ => hnow ▸ timely.starting hbefore⟩
      · rw [htest] at hafter
        cases hafter
      · rw [hstart] at hafter
        cases hafter
  | schedules hbefore hafter hnext =>
      refine ⟨hpast, fun htest => ?_, fun _ => Or.inr ?_, fun hstart => ?_⟩
      · rw [hafter] at htest
        cases htest
      · obtain ⟨check, hcheck, hstarted, hnow, hlatest⟩ :=
          timely.starting (by rw [hbefore]; rfl)
        refine ⟨check, hcheck, hstarted, ?_, fun other hother _ => ?_⟩
        · rw [hnext, hconfig, hnow]
        · rw [hnow]
          exact hlatest other hother
      · rw [hafter] at hstart
        cases hstart
  | other _ hstart hafter hstart' hnext =>
      refine ⟨hpast, fun htest => absurd htest hafter, fun _ => ?_, fun hstarting => ?_⟩
      · rw [hnext]
        exact timely.scheduled hstart
      · rw [hstart'] at hstarting
        cases hstarting

theorem PollerEffect.clock {i : Fin n} (effect : PollerEffect i s next) :
    next.clock = s.clock := by
  cases effect with
  | moves _ _ hshared => exact congrArg Shared.clock hshared
  | leaves _ _ _ hshared => exact congrArg Shared.clock hshared
  | enters _ _ hshared => exact congrArg Shared.clock hshared
  | takes _ _ _ hshared => exact congrArg Shared.clock hshared
  | leavesLoop _ _ _ _ hshared => exact congrArg Shared.clock hshared
  | queries _ _ _ _ _ _ _ _ _ _ _ _ _ hshared => exact congrArg Shared.clock hshared
  | finishes _ _ _ _ hshared => exact congrArg Shared.clock hshared
  | endsRound _ hshared => exact congrArg Shared.clock hshared
  | returns _ _ _ hshared => exact congrArg Shared.clock hshared
  | fails _ hshared => exact congrArg Shared.clock hshared

/-- A check does what it should, and keeps the time of the next iteration. -/
theorem Timely.check {config : Rtgconf} (hinterval : interval ≠ 0)
    (timely : Timely interval s checks) (hpc : s.monitor.pc = .startTest)
    (effect : TimeEffect config s next) (hclock : next.clock = s.clock) :
    ChecksRight interval checks
        { now := s.monitor.now
          noneActive := s.activeThreads = 0
          started := next.monitor.pc = .startCount } ∧
      Timely interval next
        ({ now := s.monitor.now
           noneActive := s.activeThreads = 0
           started := next.monitor.pc = .startCount } :: checks) := by
  obtain ⟨hnonneg, hpast, hbefore⟩ := timely.read hpc
  have hscheduled := timely.scheduled (by rw [hpc]; rfl)
  have hdue := scheduled_le_iff hinterval hscheduled hnonneg fun check hcheck =>
    ⟨(timely.past check hcheck).1, hbefore check hcheck⟩
  have hall : ∀ started : Bool, ∀ check ∈ ({ now := s.monitor.now
                                             noneActive := s.activeThreads = 0
                                             started := started } : Check) :: checks,
      0 ≤ check.now ∧ check.now ≤ next.clock ∧ check.now ≤ s.monitor.now := by
    intro started check hcheck
    rw [hclock]
    rcases List.mem_cons.mp hcheck with rfl | hcheck
    · exact ⟨hnonneg, hpast, Int.le_refl _⟩
    · exact ⟨(timely.past check hcheck).1, (timely.past check hcheck).2, hbefore check hcheck⟩
  cases effect with
  | starts _ hafter hactive htime hnow =>
      have hstarted : decide (next.monitor.pc = .startCount) = true := by simp [hafter]
      rw [hstarted]
      refine ⟨⟨fun _ => hdue.mp htime, fun _ => iff_of_true rfl (hdue.mp htime)⟩, ?_⟩
      refine ⟨fun check hcheck => ⟨(hall _ check hcheck).1, (hall _ check hcheck).2.1⟩,
        fun htest => ?_, fun hstart => ?_, fun _ => ?_⟩
      · rw [hafter] at htest
        cases htest
      · rw [hafter] at hstart
        cases hstart
      · rw [hnow]
        exact ⟨_, List.mem_cons_self, rfl, rfl, fun other hother => (hall _ other hother).2.2⟩
  | passes _ hafter htest hnext =>
      have hstarted : decide (next.monitor.pc = .startCount) = false := by simp [hafter]
      rw [hstarted]
      constructor
      · constructor
        · intro impossible
          cases impossible
        · intro hactive
          have hlate : ¬ s.monitor.nextIteration ≤ s.monitor.now := fun hle =>
            htest ⟨of_decide_eq_true hactive, hle⟩
          rw [hdue, not_not] at hlate
          exact iff_of_false nofun (not_not.mpr hlate)
      · refine ⟨fun check hcheck => ⟨(hall _ check hcheck).1, (hall _ check hcheck).2.1⟩,
          fun htest => ?_, fun _ => ?_, fun hstart => ?_⟩
        · rw [hafter] at htest
          cases htest
        · rw [hnext]
          rcases hscheduled with ⟨hzero, hnone⟩ | ⟨latest, hlatest, hlatestStarted, htime, hothers⟩
          · exact Or.inl ⟨hzero, List.forall_mem_cons.mpr ⟨rfl, hnone⟩⟩
          · refine Or.inr ⟨latest, List.mem_cons_of_mem _ hlatest, hlatestStarted, htime, ?_⟩
            exact List.forall_mem_cons.mpr ⟨nofun, hothers⟩
        · rw [hafter] at hstart
          cases hstart
  | reads hbefore => rw [hpc] at hbefore; cases hbefore
  | starting hbefore => rw [hpc] at hbefore; cases hbefore
  | schedules hbefore => rw [hpc] at hbefore; cases hbefore
  | other hbefore => exact absurd hpc hbefore

/-- A new monitor takes over the time of the next iteration. -/
theorem timely_start {m : Nat} (hosts : List Poller.Queryhost) {clock : Nat} {time : Int}
    (statistics : Statistics) (hpast : ∀ check ∈ checks, 0 ≤ check.now ∧ check.now ≤ clock)
    (hscheduled : Scheduled interval checks time) :
    Timely interval (State.start hosts clock time statistics : State m) checks :=
  ⟨hpast, nofun, fun _ => hscheduled, nofun⟩

end Invariant

/-! ## All runs -/

theorem reached_timely {interval : UInt32} (hinterval : interval ≠ 0) {n : Nat} {s : State n}
    {checks : List Check} (reached : Reached interval s checks) :
    EachCheck (ChecksRight interval) checks ∧ Timely interval s checks := by
  induction reached with
  | start hosts clock statistics =>
      exact ⟨trivial, timely_start hosts statistics nofun (Or.inl ⟨rfl, nofun⟩)⟩
  | @step n s next checks config label reached hconfig hstep ih =>
      obtain ⟨hright, timely⟩ := ih
      obtain ⟨-, effect⟩ := step_effect hstep
      cases effect with
      | ticks ms hnext =>
          subst hnext
          exact ⟨hright, timely.unmoved rfl (Nat.le_add_right _ _)⟩
      | polls i meets _ _ effect houtside =>
          have hmonitor : next.monitor = s.monitor := congrArg Outside.monitor houtside
          exact ⟨hright, timely.unmoved hmonitor effect.clock.ge⟩
      | monitors _ hmonitor =>
          obtain ⟨htimes, hclock⟩ := monitorStep_time hmonitor
          by_cases hpc : s.monitor.pc = .startTest
          · rw [checkOf_monitor hpc]
            obtain ⟨hcheck, hnext⟩ := timely.check hinterval hpc htimes hclock
            exact ⟨⟨hcheck, hright⟩, hnext⟩
          · rw [checkOf_eq_nil hpc]
            exact ⟨hright, timely.moves hconfig hpc htimes hclock⟩
      | handles thread _ effect =>
          exact ⟨hright, timely.unmoved effect.monitor (congrArg Shared.clock effect.shared).ge⟩
      | calls _ _ _ hnext | logs _ _ _ _ hnext | signals _ _ _ hnext =>
          subst hnext
          exact ⟨hright, timely.unmoved rfl (Nat.le_refl _)⟩
  | reload hosts clock statistics reached hreturned hclock ih =>
      obtain ⟨hright, timely⟩ := ih
      refine ⟨hright, timely_start hosts statistics (fun check hcheck => ?_) ?_⟩
      · obtain ⟨hnonneg, hpast⟩ := timely.past check hcheck
        exact ⟨hnonneg, Int.le_trans hpast (Int.ofNat_le.mpr hclock)⟩
      · exact timely.scheduled (by rw [hreturned]; rfl)

/-- Over all runs and reloads, no window has two starts, and a check that sees
no active poller starts an iteration exactly if its window has none. -/
theorem windows_started_once {interval : UInt32} (hinterval : interval ≠ 0) {n : Nat}
    {s : State n} {checks : List Check} (reached : Reached interval s checks) :
    EachCheck (ChecksRight interval) checks ∧
      ∀ check ∈ checks, nextInterval check.now interval < 2 ^ 63 →
        Cltime.nextInterval check.now interval = .ok (nextInterval check.now interval) := by
  obtain ⟨hright, timely⟩ := reached_timely hinterval reached
  exact ⟨hright, fun check hcheck hfits =>
    cltime_nextInterval hinterval (timely.past check hcheck).1 hfits⟩

/-! ## A reload in a window -/

/-- The steps in order, with the checks that they make. -/
def runChecks {n : Nat} (config : Rtgconf) :
    List (Label n) → State n → List Check → Option (State n × List Check)
  | [], s, checks => some (s, checks)
  | label :: labels, s, checks =>
      (step config label s).bind fun next =>
        runChecks config labels next (checkOf label s next ++ checks)

theorem Reached.run {interval : UInt32} {n : Nat} {config : Rtgconf} {labels : List (Label n)}
    {s final : State n} {checks checks' : List Check} (reached : Reached interval s checks)
    (hinterval : config.interval = interval)
    (hrun : runChecks config labels s checks = some (final, checks')) :
    Reached interval final checks' := by
  induction labels generalizing s checks with
  | nil =>
      cases hrun
      exact reached
  | cons label labels ih =>
      obtain ⟨next, hstep, hrest⟩ := Option.bind_eq_some_iff.mp hrun
      exact ih (reached.step config label hinterval hstep) hrest

/-- The poller is at its host when the next window begins, and the monitor can
start an iteration there only when it has finished.  Then a signal arrives. -/
def beforeReload : List (Label 1) :=
  pollerSteps onlyPoller 5 ++ [.tick 250] ++ monitorSteps 9 ++ pollerSteps onlyPoller 10 ++
    [.tick 250] ++ monitorSteps 5 ++ pollerSteps onlyPoller 17 ++ [.tick 250] ++
    monitorSteps 33 ++ handles (.other 0) .hup 6 ++ pollerSteps onlyPoller 4 ++ monitorSteps 31

/-- The next monitor checks in the same window, and again behind it. -/
def afterReload : List (Label 2) :=
  [.tick 250] ++ monitorSteps 7 ++ [.tick 300000] ++ monitorSteps 2

def checksOfReload : List Check :=
  [⟨600650, true, true⟩, ⟨300650, true, false⟩, ⟨300400, true, true⟩, ⟨300150, false, false⟩,
    ⟨299900, true, true⟩]

theorem windows_started_once_reload :
    EachCheck (ChecksRight 300) checksOfReload ∧
      ∀ check ∈ checksOfReload, nextInterval check.now 300 < 2 ^ 63 →
        Cltime.nextInterval check.now 300 = .ok (nextInterval check.now 300) := by
  have hbefore : (runChecks defaultRtgconf beforeReload
      (State.start oneCounter 299650 0 Statistics.initial) []).map (fun (s, checks) =>
        (checks, s.monitor.pc, s.monitor.nextIteration, s.clock)) =
        some (checksOfReload.drop 2, .returned, 600000, 300400) := by
    decide +kernel
  have hafter : (runChecks defaultRtgconf afterReload
      (State.start oneCounter 300400 600000 Statistics.initial) (checksOfReload.drop 2)).map
        Prod.snd = some checksOfReload := by
    decide +kernel
  obtain ⟨⟨stopped, earlier⟩, hstopped, hview⟩ := Option.map_eq_some_iff.mp hbefore
  simp only [Prod.mk.injEq] at hview
  obtain ⟨rfl, hreturned, hnext, hclock⟩ := hview
  have reloaded : Reached 300 (State.start oneCounter 300400 600000 Statistics.initial : State 2)
      (checksOfReload.drop 2) :=
    hnext ▸ ((Reached.start oneCounter 299650 Statistics.initial).run rfl hstopped).reload
      oneCounter 300400 Statistics.initial hreturned hclock.le
  obtain ⟨⟨final, checks⟩, hfinal, rfl⟩ := Option.map_eq_some_iff.mp hafter
  exact windows_started_once (by decide) (reloaded.run rfl hfinal)

end ClusteredPoller.Threads
