import ClusteredPoller.Library.Observation
import ClusteredPoller.Threads.Frame
import ClusteredPoller.Threads.IterationEnd

/-!
# The count of active threads

`active_threads` against what the pollers have done to it, over all lifetimes of
`run_threads`.  A poller decides by its own count of rounds whether it takes
itself out, and it may return at two places without doing so; `run_threads`
starts again from zero.
-/

namespace ClusteredPoller.Threads

open Library Library.Census State

/-! ## Lifetimes -/

inductive Activity (n : Nat) where
  /-- `active_threads++` -/
  | entered (i : Fin n)
  /-- `active_threads--`, from a number. -/
  | left (i : Fin n) (activeThreads : UInt32)
  /-- `iterations++` -/
  | roundEnded (i : Fin n)
  deriving DecidableEq

/-- What the step of a label does to the count, and to a poller's rounds. -/
def activity {n : Nat} : Label n → State n → List (Activity n)
  | .poller i _, s =>
      match (s.pollers i).pc with
      | .activeCount => [.entered i]
      | .inactiveCount => if (s.pollers i).iterations > 0 then [.left i s.activeThreads] else []
      | .roundEnd => [.roundEnded i]
      | _ => []
  | _, _ => []

/-- `mt_threads_join` has returned for the pollers and for the monitor. -/
def State.Joined {n : Nat} (s : State n) : Prop :=
  (∀ i, (s.pollers i).pc = .returned) ∧ s.monitor.pc = .returned ∧ s.fault = none

/-- The next call of `run_threads`, some time later, with other targets and
another number of threads. -/
def State.restart {n : Nat} (s : State n) (threads : UInt32) (hosts : List Poller.Queryhost)
    (elapsed : Nat) : State threads.toNat :=
  State.start hosts (s.clock + elapsed) s.monitor.nextIteration s.statistics

/-- What is reached in some lifetime, with what happened in it.  All steps of a
lifetime may have their own configuration. -/
inductive Lifetimes : {n : Nat} → Observed (State n) (Activity n) → Prop
  | start (threads : UInt32) (hosts : List Poller.Queryhost) (clock : Nat) (nextIteration : Int)
      (statistics : Statistics) :
      Lifetimes (Observed.begin
        (State.start hosts clock nextIteration statistics : State threads.toNat))
  | step {n : Nat} {o next : Observed (State n) (Activity n)} (config : Rtgconf)
      (label : Label n) (reached : Lifetimes o)
      (hstep : Observed.step (Threads.step config) activity label o = some next) :
      Lifetimes next
  | restart {n : Nat} {o : Observed (State n) (Activity n)} (threads : UInt32)
      (hosts : List Poller.Queryhost) (elapsed : Nat) (reached : Lifetimes o)
      (hjoined : o.state.Joined) :
      Lifetimes (Observed.begin (o.state.restart threads hosts elapsed))

section Counts

variable {n : Nat}

/-- Whether the event takes the poller in or out. -/
def Activity.presence (i : Fin n) : Activity n → Option Bool
  | .entered k => if k = i then some true else none
  | .left k _ => if k = i then some false else none
  | .roundEnded _ => none

/-- The poller has counted itself in and not out since. -/
def inside (events : List (Activity n)) (i : Fin n) : Bool :=
  (events.filterMap (Activity.presence i)).getLastD false

def rounds (i : Fin n) (events : List (Activity n)) : Nat := events.count (.roundEnded i)

theorem inside_append (events : List (Activity n)) (event : Activity n) (i : Fin n) :
    inside (events ++ [event]) i = (event.presence i).getD (inside events i) := by
  rw [inside, List.filterMap_append]
  cases hpresence : event.presence i with
  | none => simp [hpresence, inside]
  | some present => simp [hpresence]

theorem rounds_append (events more : List (Activity n)) (i : Fin n) :
    rounds i (events ++ more) = rounds i events + rounds i more :=
  List.count_append

end Counts

/-! ## The invariant -/

/-- The count and the pollers' rounds, against what has happened. -/
structure Tallied {n : Nat} (o : Observed (State n) (Activity n)) : Prop where
  threads : n < 2 ^ 32
  count : o.state.activeThreads.toNat = census id (inside o.events)
  /-- A poller that returns may leave itself counted in. -/
  pollers : ∀ i, (o.state.pollers i).pc ≠ .returned →
    inside o.events i = (o.state.pollers i).counted
  iterations : ∀ i, (o.state.pollers i).iterations.toNat = rounds i o.events
  left : ∀ i activeThreads, .left i activeThreads ∈ o.events → activeThreads ≠ 0

section Steps

variable {n : Nat} {config : Rtgconf} {o next : Observed (State n) (Activity n)} {i : Fin n}

theorem inside_update {event : Activity n} {present : Bool}
    (hevent : ∀ k, event.presence k = if i = k then some present else none)
    (events : List (Activity n)) :
    inside (events ++ [event]) = Function.update (inside events) i present := by
  funext k
  rw [inside_append, hevent]
  by_cases hik : i = k
  · subst hik
    rw [if_pos rfl, Function.update_self]
    rfl
  · rw [if_neg hik, Function.update_of_ne (Ne.symm hik)]
    rfl

theorem tallied_begin {threads : UInt32} {s : State threads.toNat}
    (hactive : s.activeThreads = 0)
    (hpollers : ∀ i, s.pollers i = { pc := .loopTest, iterations := 0 }) :
    Tallied (Observed.begin s) where
  threads := threads.toNat_lt
  count := by
    have hnone : census id (inside ([] : List (Activity threads.toNat))) = 0 :=
      census_eq_zero_iff.mpr fun _ => rfl
    rw [Observed.begin, hnone, hactive]
    rfl
  pollers i _ := by
    rw [Observed.begin, hpollers]
    rfl
  iterations i := by
    rw [Observed.begin, hpollers]
    rfl
  left i activeThreads impossible := absurd impossible List.not_mem_nil

/-- A step that shows nothing. -/
theorem Tallied.silent (tallied : Tallied o) (hevents : next.events = o.events)
    (hactive : next.state.activeThreads = o.state.activeThreads)
    (hpollers : ∀ i, (next.state.pollers i).pc ≠ .returned → (o.state.pollers i).pc ≠ .returned ∧
      (next.state.pollers i).counted = (o.state.pollers i).counted)
    (hrounds : ∀ i, (next.state.pollers i).iterations = (o.state.pollers i).iterations) :
    Tallied next where
  threads := tallied.threads
  count := by
    rw [hactive, hevents]
    exact tallied.count
  pollers i hpc := by
    obtain ⟨hbefore, hcounted⟩ := hpollers i hpc
    rw [hevents, hcounted]
    exact tallied.pollers i hbefore
  iterations i := by
    rw [hrounds, hevents]
    exact tallied.iterations i
  left := by
    rw [hevents]
    exact tallied.left

/-- The pollers after one has changed its program counter at `active_threads`. -/
theorem tallied_moves {pc : PollerPc} {event : Activity n} (tallied : Tallied o)
    (hevents : next.events = o.events ++ [event])
    (hpresence : ∀ k, event.presence k = if i = k then some (pc.countedAfter
      (o.state.pollers i).iterations) else none)
    (hrounded : ∀ k, event ≠ .roundEnded k)
    (hpollers : next.state.pollers =
      Function.update o.state.pollers i { o.state.pollers i with pc := pc })
    (hcount : next.state.activeThreads.toNat = census id (inside next.events))
    (hleft : ∀ k activeThreads, event = .left k activeThreads → activeThreads ≠ 0) :
    Tallied next where
  threads := tallied.threads
  count := hcount
  pollers k hpc := by
    rw [hevents, inside_update hpresence]
    by_cases hki : k = i
    · subst hki
      rw [Function.update_self, hpollers, Function.update_self]
      rfl
    · rw [hpollers, Function.update_of_ne hki] at hpc
      rw [Function.update_of_ne hki, hpollers, Function.update_of_ne hki]
      exact tallied.pollers k hpc
  iterations k := by
    have moved : Moved i o.state next.state := ⟨pc, hpollers⟩
    rw [moved.iterations, hevents, rounds_append, tallied.iterations]
    exact (Nat.add_eq_left.mpr (List.count_eq_zero.mpr (by simpa using (hrounded k).symm))).symm
  left k activeThreads hmem := by
    rw [hevents] at hmem
    rcases List.mem_append.mp hmem with hbefore | hnew
    · exact tallied.left k activeThreads hbefore
    · exact hleft k activeThreads (List.mem_singleton.mp hnew).symm

theorem Tallied.enters (tallied : Tallied o) (hpc : (o.state.pollers i).pc = .activeCount)
    (hevents : next.events = o.events ++ [.entered i])
    (hnext : next.state =
      { o.state with activeThreads := o.state.activeThreads + 1 }.goto i .activeUnlock) :
    Tallied next := by
  have hpresence : ∀ k, (Activity.entered i).presence k = if i = k then some true else none :=
    fun _ => rfl
  have houtside : inside o.events i = false := by
    rw [tallied.pollers i (by rw [hpc]; simp), PollerThread.counted, hpc]
    rfl
  refine tallied_moves tallied hevents hpresence (by simp) (by rw [hnext]; rfl) ?_ (by simp)
  rw [hevents, inside_update hpresence, hnext]
  exact toNat_add_one tallied.threads tallied.count houtside rfl

theorem Tallied.leaves (tallied : Tallied o) (hpc : (o.state.pollers i).pc = .inactiveCount)
    (hiterations : (o.state.pollers i).iterations > 0)
    (hevents : next.events = o.events ++ [.left i o.state.activeThreads])
    (hnext : next.state =
      { o.state with activeThreads := o.state.activeThreads - 1 }.goto i .inactiveLast) :
    Tallied next := by
  have hpresence : ∀ k, (Activity.left i o.state.activeThreads).presence k =
      if i = k then some false else none := fun _ => rfl
  have hinside : inside o.events i = true := by
    rw [tallied.pollers i (by rw [hpc]; simp), PollerThread.counted, hpc]
    exact decide_eq_true hiterations
  obtain ⟨hpositive, hcount⟩ :=
    @toNat_sub_one n Bool id (inside o.events) i false _ tallied.count hinside rfl
  refine tallied_moves tallied hevents hpresence (by simp) (by rw [hnext]; rfl) ?_ ?_
  · rw [hevents, inside_update hpresence, hnext]
    exact hcount
  · rintro k activeThreads heq
    cases heq
    exact hpositive

theorem Tallied.endsRound (tallied : Tallied o) (hpc : (o.state.pollers i).pc = .roundEnd)
    (hevents : next.events = o.events ++ [.roundEnded i])
    (hrounds : rounds i next.events < 2 ^ 32)
    (hnext : next.state = o.state.setPoller i
      { pc := .loopTest, iterations := (o.state.pollers i).iterations + 1 }) :
    Tallied next := by
  have hinside : ∀ k, inside next.events k = inside o.events k := by
    intro k
    rw [hevents, inside_append]
    rfl
  have hone : rounds i next.events = rounds i o.events + 1 := by
    rw [hevents, rounds_append]
    simp [rounds]
  have hiterations : ((o.state.pollers i).iterations + 1).toNat = rounds i o.events + 1 := by
    rw [UInt32.toNat_add, tallied.iterations]
    exact Nat.mod_eq_of_lt (hone ▸ hrounds)
  have hpollers : next.state.pollers = Function.update o.state.pollers i
      { pc := .loopTest, iterations := (o.state.pollers i).iterations + 1 } := by
    rw [hnext]
    rfl
  constructor
  · exact tallied.threads
  · rw [funext hinside, hnext]
    exact tallied.count
  · intro k hreturned
    rw [hinside, hpollers]
    by_cases hki : k = i
    · subst hki
      rw [Function.update_self, tallied.pollers k (by rw [hpc]; simp), PollerThread.counted, hpc]
      refine (decide_eq_true ?_).symm
      rw [gt_iff_lt, UInt32.lt_iff_toNat_lt, hiterations]
      exact Nat.succ_pos _
    · rw [hpollers, Function.update_of_ne hki] at hreturned
      rw [Function.update_of_ne hki]
      exact tallied.pollers k hreturned
  · intro k
    rw [hpollers]
    by_cases hki : k = i
    · subst hki
      rw [Function.update_self, hone]
      exact hiterations
    · rw [Function.update_of_ne hki, hevents, rounds_append, tallied.iterations]
      have hother : rounds k [.roundEnded i] = 0 :=
        List.count_eq_zero.mpr (by simpa using hki)
      rw [hother, Nat.add_zero]
  · intro k activeThreads hmem
    rw [hevents] at hmem
    rcases List.mem_append.mp hmem with hbefore | hnew
    · exact tallied.left k activeThreads hbefore
    · cases List.mem_singleton.mp hnew

/-- A step of a poller that shows nothing. -/
theorem Tallied.moves {poller : PollerThread} (tallied : Tallied o)
    (hevents : next.events = o.events)
    (hactive : next.state.activeThreads = o.state.activeThreads)
    (hpollers : next.state.pollers = Function.update o.state.pollers i poller)
    (moved : Moved i o.state next.state) (hpc : (o.state.pollers i).pc ≠ .returned)
    (hcounted : poller.pc ≠ .returned → poller.counted = (o.state.pollers i).counted) :
    Tallied next := by
  refine tallied.silent hevents hactive (fun k hreturned => ?_) moved.iterations
  rw [hpollers] at hreturned ⊢
  by_cases hki : k = i
  · subst hki
    rw [Function.update_self] at hreturned ⊢
    exact ⟨hpc, hcounted hreturned⟩
  · rw [Function.update_of_ne hki] at hreturned ⊢
    exact ⟨hreturned, rfl⟩

theorem Tallied.pollsSilent (tallied : Tallied o) (hevents : next.events = o.events)
    (moved : Moved i o.state next.state) (hpc : (o.state.pollers i).pc ≠ .returned)
    (hquiet : (o.state.pollers i).pc ≠ .activeCount ∧ (o.state.pollers i).pc ≠ .roundEnd)
    (hstays : (o.state.pollers i).pc = .inactiveCount → ¬ (o.state.pollers i).iterations > 0)
    (effect : PollerEffect i o.state next.state) : Tallied next := by
  cases effect with
  | moves pc like hshared hpollers =>
      exact tallied.moves hevents (congrArg Shared.activeThreads hshared) hpollers moved hpc
        fun _ => like.counted
  | leaves _ hleaves hcounted =>
      rw [PollerThread.counted, hleaves] at hcounted
      exact absurd (of_decide_eq_true hcounted) (hstays hleaves)
  | enters _ henters => exact absurd henters hquiet.1
  | takes poller htakes _ hshared hpollers hafter =>
      refine tallied.moves hevents (congrArg Shared.activeThreads hshared) hpollers moved hpc
        fun _ => ?_
      rw [PollerThread.counted, PollerThread.counted, hafter, htakes]
      rfl
  | leavesLoop poller hloop _ _ hshared hpollers hafter =>
      refine tallied.moves hevents (congrArg Shared.activeThreads hshared) hpollers moved hpc
        fun _ => ?_
      rw [counted_of_inHostLoop hloop, PollerThread.counted, hafter]
      rfl
  | queries poller _ _ _ _ _ _ _ _ hqueries _ _ _ hshared hpollers hafter _ =>
      refine tallied.moves hevents (congrArg Shared.activeThreads hshared) hpollers moved hpc
        fun _ => ?_
      rw [counted_of_inHostLoop (by rw [hqueries]; rfl), PollerThread.counted]
      exact PollerPc.countedAfter_of_inHostLoop (PollerPc.inHostLoop_of_inWork hafter) _
  | finishes poller _ _ hfinishes hshared hpollers hafter =>
      refine tallied.moves hevents (congrArg Shared.activeThreads hshared) hpollers moved hpc
        fun _ => ?_
      rw [PollerThread.counted, PollerThread.counted, hafter, hfinishes]
      rfl
  | endsRound hends => exact absurd hends hquiet.2
  | returns poller _ _ hshared hpollers hafter =>
      exact tallied.moves hevents (congrArg Shared.activeThreads hshared) hpollers moved hpc
        fun hreturned => absurd hafter hreturned
  | fails fault hshared hpollers _ =>
      exact tallied.silent hevents (congrArg Shared.activeThreads hshared)
        (fun k hreturned => by rw [hpollers] at hreturned ⊢; exact ⟨hreturned, rfl⟩)
        moved.iterations

theorem Tallied.polls {meets : Meeting} (tallied : Tallied o)
    (hrounds : ∀ i, rounds i next.events < 2 ^ 32)
    (hstep : pollerStep config i meets o.state = some next.state)
    (hevents : next.events = o.events ++ activity (.poller i meets) o.state) :
    Tallied next := by
  have effect := (pollerStep_effect hstep).1
  have hmoved := (pollerStep_frame hstep).moved
  rw [pollerStep] at hstep
  rw [activity] at hevents
  cases hpc : (o.state.pollers i).pc with
  | activeCount =>
      rw [hpc] at hstep hevents
      exact tallied.enters hpc hevents (Option.some.inj hstep).symm
  | roundEnd =>
      rw [hpc] at hstep hevents
      exact tallied.endsRound hpc hevents (hrounds i) (Option.some.inj hstep).symm
  | inactiveCount =>
      rw [hpc] at hstep hevents
      by_cases hiterations : (o.state.pollers i).iterations > 0
      · rw [pollerStepAt, if_pos hiterations] at hstep
        dsimp only at hevents
        rw [if_pos hiterations] at hevents
        exact tallied.leaves hpc hiterations hevents (Option.some.inj hstep).symm
      · dsimp only at hevents
        rw [if_neg hiterations, List.append_nil] at hevents
        exact tallied.pollsSilent hevents (hmoved (by rw [hpc]; simp)) (by rw [hpc]; simp)
          (by rw [hpc]; simp) (fun _ => hiterations) effect
  | returned =>
      rw [hpc] at hstep
      cases hstep
  | _ =>
      rw [hpc] at hevents
      exact tallied.pollsSilent (hevents.trans (List.append_nil _)) (hmoved (by rw [hpc]; simp))
        (by rw [hpc]; simp) (by rw [hpc]; simp) (by rw [hpc]; simp) effect

/-- A step of another thread. -/
theorem Tallied.others (tallied : Tallied o) (hevents : next.events = o.events)
    (hactive : next.state.activeThreads = o.state.activeThreads)
    (hpollers : next.state.pollers = o.state.pollers) : Tallied next :=
  tallied.silent hevents hactive
    (fun k hreturned => by rw [hpollers] at hreturned ⊢; exact ⟨hreturned, rfl⟩)
    (fun k => by rw [hpollers])

theorem Tallied.step {label : Label n} (tallied : Tallied o)
    (hrounds : ∀ i, rounds i next.events < 2 ^ 32)
    (hstep : Observed.step (Threads.step config) activity label o = some next) :
    Tallied next := by
  obtain ⟨hmake, hevents⟩ := Observed.step_eq_some.mp hstep
  obtain ⟨-, effect⟩ := step_effect hmake
  cases effect with
  | ticks ms hnext =>
      refine tallied.others (hevents.trans (List.append_nil _)) ?_ ?_
      · rw [hnext]
      · rw [hnext]
  | polls i meets _ hpolls => exact tallied.polls hrounds hpolls hevents
  | monitors _ _ effect =>
      refine tallied.others (hevents.trans (List.append_nil _)) ?_ effect.pollers
      cases effect.effect with
      | resets _ hshared => exact congrArg Shared.activeThreads hshared
      | ends _ _ _ hshared => exact congrArg Shared.activeThreads hshared
      | moves hshared => exact congrArg Shared.activeThreads hshared
  | handles thread _ effect =>
      exact tallied.others (hevents.trans (List.append_nil _))
        (congrArg Shared.activeThreads effect.shared) effect.pollers
  | calls _ _ _ hnext | logs _ _ _ _ hnext | signals _ _ _ hnext =>
      refine tallied.others (hevents.trans (List.append_nil _)) ?_ ?_
      · rw [hnext]
      · rw [hnext]

end Steps

/-! ## All lifetimes -/

section Lifetimes

variable {n : Nat} {o : Observed (State n) (Activity n)}

theorem tallied_of_lifetimes (reached : Lifetimes o)
    (hrounds : ∀ i, rounds i o.events < 2 ^ 32) : Tallied o := by
  induction reached with
  | start threads hosts clock nextIteration statistics =>
      exact tallied_begin rfl fun _ => rfl
  | step config label _ hstep ih =>
      refine Tallied.step (ih fun i => ?_) hrounds hstep
      have hlater := hrounds i
      rw [(Observed.step_eq_some.mp hstep).2, rounds_append] at hlater
      exact Nat.lt_of_le_of_lt (Nat.le_add_right _ _) hlater
  | restart threads hosts elapsed _ _ _ => exact tallied_begin rfl fun _ => rfl

/-- Over all lifetimes of `run_threads`, as long as no poller has made 2^32
rounds, `active_threads` is the number of pollers that have counted themselves
in and not out since, and it is never decremented from zero. -/
theorem active_threads_counted (reached : Lifetimes o)
    (hrounds : ∀ i, rounds i o.events < 2 ^ 32) :
    o.state.activeThreads.toNat = census id (inside o.events) ∧
      ∀ i activeThreads, .left i activeThreads ∈ o.events → activeThreads ≠ 0 := by
  have tallied := tallied_of_lifetimes reached hrounds
  exact ⟨tallied.count, tallied.left⟩

theorem Lifetimes.run {config : Rtgconf} {labels : List (Label n)}
    {final : Observed (State n) (Activity n)} (reached : Lifetimes o)
    (hrun : Transition.run (Observed.step (Threads.step config) activity) labels o = some final) :
    Lifetimes final := by
  induction labels generalizing o with
  | nil =>
      cases hrun
      exact reached
  | cons label labels ih =>
      obtain ⟨next, hstep, hrest⟩ := Transition.run_cons_eq_some.mp hrun
      exact ih (reached.step config label hstep) hrest

end Lifetimes

/-- The wait of the only poller ends for no reason. -/
def wakesEarly : List (Label 1) := [.poller onlyPoller { spurious := true }]

/-- The poller makes a round and begins the next one, without a broadcast.  Then
a signal arrives, and the poller and the monitor return. -/
def stoppedLifetime : List (Label 1) :=
  pollerSteps onlyPoller 5 ++ wakesEarly ++ pollerSteps onlyPoller 14 ++ wakesEarly ++
    pollerSteps onlyPoller 6 ++ [.signal .monitor .hup] ++ List.replicate 6 (.handler .monitor) ++
    pollerSteps onlyPoller 3 ++ monitorSteps 2

/-- The poller of the next lifetime counts itself in. -/
def nextLifetime : List (Label 1) :=
  pollerSteps onlyPoller 5 ++ wakesEarly ++ pollerSteps onlyPoller 5

theorem active_threads_counted_restarted :
    ∃ stopped final : Observed (State 1) (Activity 1),
      Transition.run (Observed.step (step defaultRtgconf) activity) stoppedLifetime
        (Observed.begin (State.start [] 1000 0 Statistics.initial)) = some stopped ∧
      stopped.state.activeThreads = 1 ∧ stopped.events =
        [.entered onlyPoller, .roundEnded onlyPoller, .left onlyPoller 1, .entered onlyPoller,
          .roundEnded onlyPoller] ∧
      Transition.run (Observed.step (step defaultRtgconf) activity) nextLifetime
        (Observed.begin (stopped.state.restart 1 [] 5)) = some final ∧
      final.state.activeThreads.toNat = census id (inside final.events) ∧
      ∀ i activeThreads, .left i activeThreads ∈ final.events → activeThreads ≠ 0 := by
  have first : Lifetimes (Observed.begin (State.start [] 1000 0 Statistics.initial : State 1)) :=
    Lifetimes.start 1 [] 1000 0 Statistics.initial
  have stopped := first.run (rfl : Transition.run (Observed.step (step defaultRtgconf) activity)
    stoppedLifetime _ = some _)
  have restarted := Lifetimes.restart 1 [] 5 stopped ⟨by decide, rfl, rfl⟩
  have reached := restarted.run (rfl :
    Transition.run (Observed.step (step defaultRtgconf) activity) nextLifetime _ = some _)
  exact ⟨_, _, rfl, rfl, rfl, rfl, active_threads_counted reached (by decide)⟩

end ClusteredPoller.Threads
