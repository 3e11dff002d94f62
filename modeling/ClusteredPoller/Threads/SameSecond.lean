import ClusteredPoller.Poller.RateLemmas
import ClusteredPoller.Threads.HostExclusion

/-!
# Two polls of a row in the same second

`calculate_rate` leaves the program when a counter is read twice in the same
second, which its message says can't happen.  Nothing in the schedule keeps two
polls of a row apart: a round that overruns its interval is followed by the
next one at once.  What does keep them apart is a look at the cache times when
a host is handed out.
-/

namespace ClusteredPoller.Threads

open Library Library.Outcome Poller State

variable {n : Nat} {config : Rtgconf} {s next : State n}

/-! ## One row -/

/-- The row is a gauge, was never read, or was last read before a time. -/
def ReadBefore (row : Queryrow) (time : Int) : Prop :=
  row.bits = 0 ∨ row.cachedTime = 0 ∨ row.cachedTime < time

instance (row : Queryrow) (time : Int) : Decidable (ReadBefore row time) :=
  inferInstanceAs (Decidable (_ ∨ _ ∨ _))

theorem ReadBefore.later {row : Queryrow} {time later : Int} (before : ReadBefore row time)
    (hle : time ≤ later) : ReadBefore row later := by
  rcases before with hgauge | hfresh | hbefore
  · exact Or.inl hgauge
  · exact Or.inr (Or.inl hfresh)
  · exact Or.inr (Or.inr (Int.lt_of_lt_of_le hbefore hle))

theorem valueOf_exit {row : Queryrow} {sample : Sample}
    (hexit : valueOf row sample = .error .exit) : ¬ ReadBefore row sample.dtime := by
  unfold valueOf at hexit
  split at hexit
  · rename_i hcached
    split at hexit
    · rcases bind_eq_error.mp hexit with hrate | ⟨found, _, impossible⟩
      · obtain ⟨hbits, hsame⟩ := calculateRate_exit_iff.mp hrate
        rintro (hgauge | hfresh | hbefore)
        · exact hbits hgauge
        · exact hcached.elim hbits fun hread => hread hfresh
        · exact absurd (hsame ▸ hbefore) (Int.lt_irrefl _)
      · split at impossible <;> cases impossible
    · cases hexit
  · cases hexit

/-- A poll of a row leaves the program only if the row was read in the second of
the response. -/
theorem pollRow_exit {number : Nat} {row : Queryrow} {reply : Reply} {progress : Progress}
    (hexit : pollRow number row reply progress = .error .exit) :
    ∃ sample, reply = some sample ∧ ¬ ReadBefore row sample.dtime := by
  rcases pollRow_fault_cause hexit with ⟨sample, hreply, hvalue⟩ | impossible | impossible
  · exact ⟨sample, hreply, valueOf_exit hvalue⟩
  · cases impossible
  · cases impossible

/-! ## All rows -/

theorem row_congr (hhosts : next.hosts = s.hosts) (host number : Nat) :
    next.row host number = s.row host number := by
  rw [State.row, State.row, hhosts]

theorem row_setRow_of_ne {host number : Nat} {row : Queryrow} {host' number' : Nat}
    (hne : host' ≠ host ∨ number' ≠ number) :
    (s.setRow host number row).row host' number' = s.row host' number' := by
  unfold State.row State.setRow
  dsimp only
  rw [List.getElem?_modify]
  cases s.hosts[host']? with
  | none => rfl
  | some target =>
      rw [Option.map_eq_map, Option.map_some, Option.bind_some, Option.bind_some]
      by_cases hhost : host = host'
      · have hnumber : number ≠ number' := fun hsame =>
          hne.elim (fun h => h hhost.symm) fun h => h hsame.symm
        rw [if_pos hhost, List.getElem?_set_ne hnumber]
      · rw [if_neg hhost]

theorem time_congr (hclock : next.clock = s.clock) : next.time = s.time := by
  rw [State.time, State.time, hclock]

theorem time_mono (hclock : s.clock ≤ next.clock) : s.time ≤ next.time :=
  Int.ofNat_le.mpr (Nat.div_le_div_right hclock)

/-! ## The condition and the invariant -/

instance (s : State n) (i : Fin n) (host : Nat) : Decidable (Processes s i host) :=
  decidable_of_iff ((s.pollers i).pc.inWork.map Prod.fst = some host) <| by
    rw [Option.map_eq_some_iff, Prod.exists]
    constructor
    · rintro ⟨host, round, hinWork, rfl⟩
      exact ⟨round, hinWork⟩
    · rintro ⟨round, hinWork⟩
      exact ⟨host, round, hinWork, rfl⟩

/-- A host that is handed out is not being processed, and its counters were last
read in an earlier second. -/
def HandsOutRested : Label n → State n → Prop
  | .poller i _, s => (s.pollers i).pc = .nextHost → ∀ target ∈ s.hosts[s.nextHost]?,
      (∀ row ∈ target.rows, ReadBefore row s.time) ∧ ∀ j, ¬ Processes s j s.nextHost
  | _, _ => True

instance : ∀ (label : Label n) (s : State n), Decidable (HandsOutRested label s)
  | .poller i _, s =>
      inferInstanceAs (Decidable ((s.pollers i).pc = .nextHost → ∀ target ∈ s.hosts[s.nextHost]?,
        (∀ row ∈ target.rows, ReadBefore row s.time) ∧ ∀ j, ¬ Processes s j s.nextHost))
  | .tick _, _ | .monitor, _ | .callsCllog _, _ | .cllog _, _ | .handler _, _
  | .signal _ _, _ => .isTrue trivial

/-- The rows that a poller still has to query were last read in an earlier
second. -/
structure RowsRested (s : State n) : Prop where
  exclusive : ∀ i j host, Processes s i host → Processes s j host → i = j
  pending : ∀ i host first, (s.pollers i).pc.pending = some (host, first) →
    ∀ number row, first ≤ number → s.row host number = some row → ReadBefore row s.time

theorem processes_of_pending {i : Fin n} {host first : Nat}
    (hpending : (s.pollers i).pc.pending = some (host, first)) : Processes s i host := by
  cases hpc : (s.pollers i).pc with
  | processing other round stage =>
      rw [hpc] at hpending
      refine ⟨round, ?_⟩
      rw [hpc]
      cases stage <;> cases hpending <;> rfl
  | _ =>
      rw [hpc] at hpending
      cases hpending

theorem rowsRested_start (hosts : List Queryhost) (clock : Nat) (nextIteration : Int)
    (statistics : Statistics) :
    RowsRested (State.start hosts clock nextIteration statistics : State n) := by
  refine ⟨(inWorkExclusive_start hosts clock nextIteration statistics).exclusive, ?_⟩
  intro i host first impossible
  cases impossible

/-! ## Steps -/

/-- A step that reads no row and takes no host. -/
structure Leaves (s next : State n) : Prop where
  hosts : next.hosts = s.hosts
  clock : s.clock ≤ next.clock
  inWork : ∀ j, (next.pollers j).pc.inWork = none ∨
    (next.pollers j).pc.inWork = (s.pollers j).pc.inWork
  pending : ∀ j, (next.pollers j).pc.pending = none ∨
    (next.pollers j).pc.pending = (s.pollers j).pc.pending

theorem Leaves.rowsRested (leaves : Leaves s next) (rested : RowsRested s) : RowsRested next := by
  refine ⟨exclusive_of_kept leaves.inWork rested.exclusive, ?_⟩
  intro i host first hpending number row hfirst hrow
  rcases leaves.pending i with hnone | hsame
  · rw [hnone] at hpending
    cases hpending
  · rw [hsame] at hpending
    rw [row_congr leaves.hosts] at hrow
    exact (rested.pending i host first hpending number row hfirst hrow).later
      (time_mono leaves.clock)

/-- No poller moves. -/
theorem leaves_of_pollers (hpollers : next.pollers = s.pollers) (hhosts : next.hosts = s.hosts)
    (hclock : s.clock ≤ next.clock) : Leaves s next :=
  ⟨hhosts, hclock, fun _ => Or.inr (by rw [hpollers]), fun _ => Or.inr (by rw [hpollers])⟩

/-- One poller moves, with the host and the pending rows that it had before, if any. -/
theorem leaves_update {i : Fin n} {poller : PollerThread}
    (hpollers : next.pollers = Function.update s.pollers i poller)
    (hshared : next.hosts = s.hosts ∧ next.clock = s.clock)
    (hinWork : poller.pc.inWork = none ∨ poller.pc.inWork = (s.pollers i).pc.inWork)
    (hpending : poller.pc.pending = none ∨ poller.pc.pending = (s.pollers i).pc.pending) :
    Leaves s next := by
  refine ⟨hshared.1, hshared.2.ge, inWork_update hpollers hinWork, ?_⟩
  rw [hpollers]
  apply (Function.forall_update_iff s.pollers fun j poller =>
    poller.pc.pending = none ∨ poller.pc.pending = (s.pollers j).pc.pending).mpr
  exact ⟨hpending, fun _ _ => Or.inr rfl⟩

/-- One poller moves to a program counter without a host. -/
theorem leaves_idle {i : Fin n} {poller : PollerThread}
    (hpollers : next.pollers = Function.update s.pollers i poller)
    (hshared : next.hosts = s.hosts ∧ next.clock = s.clock)
    (hinWork : poller.pc.inWork = none) (hpending : poller.pc.pending = none) : Leaves s next :=
  leaves_update hpollers hshared (Or.inl hinWork) (Or.inl hpending)

/-- The hosts and the clock of a state whose shared data are known. -/
theorem shared_kept {shared : Shared} (hshared : next.shared = shared)
    (hhosts : shared.hosts = s.hosts) (hclock : shared.clock = s.clock) :
    next.hosts = s.hosts ∧ next.clock = s.clock :=
  ⟨(congrArg Shared.hosts hshared).trans hhosts, (congrArg Shared.clock hshared).trans hclock⟩

/-- A poller that takes a host may query all its rows. -/
theorem takes_rowsRested {i : Fin n} {poller : PollerThread} (rested : RowsRested s)
    (hleft : s.nextHost < s.hosts.length)
    (hrested : ∀ target ∈ s.hosts[s.nextHost]?,
      (∀ row ∈ target.rows, ReadBefore row s.time) ∧ ∀ j, ¬ Processes s j s.nextHost)
    (hshared : next.hosts = s.hosts ∧ next.clock = s.clock)
    (hpollers : next.pollers = Function.update s.pollers i poller)
    (hafter : poller.pc = .processing s.nextHost s.round .openSession) : RowsRested next := by
  obtain ⟨hhosts, hclock⟩ := hshared
  obtain ⟨hrows, hfree⟩ := hrested _ (List.getElem?_eq_getElem hleft)
  have hinWork : (next.pollers i).pc.inWork = some (s.nextHost, s.round) := by
    rw [hpollers, Function.update_self, hafter]
    rfl
  have hothers : ∀ j, j ≠ i → next.pollers j = s.pollers j := by
    intro j hij
    rw [hpollers, Function.update_of_ne hij]
  constructor
  · exact exclusive_of_taken hinWork hothers hfree rested.exclusive
  · intro j host first hpending number row hfirst hrow
    rw [time_congr hclock]
    rw [hpollers] at hpending
    rw [row_congr hhosts] at hrow
    by_cases hij : j = i
    · rw [hij, Function.update_self, hafter] at hpending
      cases hpending
      obtain ⟨target, htarget, hnumber⟩ := Option.bind_eq_some_iff.mp hrow
      rw [List.getElem?_eq_getElem hleft, Option.some.injEq] at htarget
      rw [← htarget] at hnumber
      exact hrows row (List.mem_of_getElem? hnumber)
    · rw [Function.update_of_ne hij] at hpending
      exact rested.pending j host first hpending number row hfirst hrow

/-- A poller that queries a row changes that row only. -/
theorem queries_rowsRested {i : Fin n} {poller : PollerThread} {host round number : Nat}
    {progress : Progress} {row' : Queryrow} (rested : RowsRested s)
    (hpc : (s.pollers i).pc = .processing host round (.queryRow number progress))
    (hshared : next.shared = (s.setRow host number row').shared)
    (hpollers : next.pollers = Function.update s.pollers i poller)
    (hafter : poller.pc.inWork = some (host, round))
    (hpending : poller.pc.pending = some (host, number + 1) ∨ poller.pc.pending = none) :
    RowsRested next := by
  have hinWork : (s.pollers i).pc.inWork = some (host, round) := by
    rw [hpc]
    rfl
  have hinWork := inWork_update hpollers (Or.inr (hafter.trans hinWork.symm))
  have hclock : next.clock = s.clock := congrArg Shared.clock hshared
  have hrows : next.hosts = (s.setRow host number row').hosts := congrArg Shared.hosts hshared
  constructor
  · exact exclusive_of_kept hinWork rested.exclusive
  · intro j other first hother later row hfirst hrow
    rw [time_congr hclock]
    rw [row_congr hrows] at hrow
    by_cases hij : j = i
    · -- The rows behind the queried one are still as they were.
      rw [hpollers, hij, Function.update_self] at hother
      rcases hpending with hnext | hnone
      · rw [hnext] at hother
        cases hother
        rw [row_setRow_of_ne (Or.inr (Nat.ne_of_gt hfirst))] at hrow
        refine rested.pending i host number ?_ later row (Nat.le_of_succ_le hfirst) hrow
        rw [hpc]
        rfl
      · rw [hnone] at hother
        cases hother
    · -- The other pollers process other hosts.
      rw [hpollers, Function.update_of_ne hij] at hother
      have hne : other ≠ host := by
        rintro rfl
        exact hij (rested.exclusive j i other (processes_of_pending hother) ⟨round, hinWork⟩)
      rw [row_setRow_of_ne (Or.inl hne)] at hrow
      exact rested.pending j other first hother later row hfirst hrow

theorem pollerEffect_rowsRested {i : Fin n} {meets : Meeting} (rested : RowsRested s)
    (guarded : HandsOutRested (.poller i meets) s) (effect : PollerEffect i s next) :
    RowsRested next := by
  cases effect with
  | moves pc like hshared hpollers =>
      exact (leaves_update hpollers (shared_kept hshared rfl rfl) (Or.inr like.inWork)
        like.pending.symm).rowsRested rested
  | leaves poller _ _ hshared hpollers hafter =>
      exact (leaves_idle hpollers (shared_kept hshared rfl rfl) (hafter ▸ rfl)
        (hafter ▸ rfl)).rowsRested rested
  | enters poller _ hshared hpollers hafter =>
      exact (leaves_idle hpollers (shared_kept hshared rfl rfl) (hafter ▸ rfl)
        (hafter ▸ rfl)).rowsRested rested
  | takes poller hpc hleft hshared hpollers hafter =>
      exact takes_rowsRested rested hleft (guarded hpc) (shared_kept hshared rfl rfl)
        hpollers hafter
  | leavesLoop poller _ _ _ hshared hpollers hafter =>
      exact (leaves_idle hpollers (shared_kept hshared rfl rfl) (hafter ▸ rfl)
        (hafter ▸ rfl)).rowsRested rested
  | queries poller host round number progress row row' reply progress' hpc _ _ _ hshared hpollers
      hafter hpending =>
      exact queries_rowsRested rested hpc hshared hpollers hafter hpending
  | finishes poller host round hpc hshared hpollers hafter =>
      exact (leaves_idle hpollers (shared_kept hshared rfl rfl) (hafter ▸ rfl)
        (hafter ▸ rfl)).rowsRested rested
  | endsRound _ hshared hpollers =>
      exact (leaves_idle hpollers (shared_kept hshared rfl rfl) rfl rfl).rowsRested rested
  | returns poller _ _ hshared hpollers hafter =>
      exact (leaves_idle hpollers (shared_kept hshared rfl rfl) (hafter ▸ rfl)
        (hafter ▸ rfl)).rowsRested rested
  | fails fault hshared hpollers _ =>
      exact (leaves_of_pollers hpollers (congrArg Shared.hosts hshared)
        (congrArg Shared.clock hshared).ge).rowsRested rested

theorem rowsRested_step {label : Label n} (guarded : HandsOutRested label s)
    (rested : RowsRested s) (hstep : step config label s = some next) : RowsRested next := by
  obtain ⟨_, effect⟩ := step_effect hstep
  cases effect with
  | ticks ms hnext =>
      subst hnext
      exact (@leaves_of_pollers n s { s with clock := s.clock + ms } rfl rfl
        (Nat.le_add_right _ _)).rowsRested rested
  | polls i meets _ _ effect _ => exact pollerEffect_rowsRested rested guarded effect
  | monitors _ _ effect =>
      cases effect.effect with
      | resets _ hshared _ =>
          exact (leaves_of_pollers effect.pollers (congrArg Shared.hosts hshared)
            (congrArg Shared.clock hshared).ge).rowsRested rested
      | ends _ _ _ hshared =>
          exact (leaves_of_pollers effect.pollers (congrArg Shared.hosts hshared)
            (congrArg Shared.clock hshared).ge).rowsRested rested
      | moves hshared _ =>
          exact (leaves_of_pollers effect.pollers (congrArg Shared.hosts hshared)
            (congrArg Shared.clock hshared).ge).rowsRested rested
  | handles thread _ effect =>
      exact (leaves_of_pollers effect.pollers (congrArg Shared.hosts effect.shared)
        (congrArg Shared.clock effect.shared).ge).rowsRested rested
  | calls _ _ _ hnext | logs _ _ _ _ hnext | signals _ _ _ hnext =>
      subst hnext
      exact ⟨rested.exclusive, rested.pending⟩

/-- A step that does not leave the program, as far as `calculate_rate` goes. -/
theorem fault_kept {shared : Shared} (hfault : s.fault = none) (hshared : next.shared = shared)
    (hkept : shared.fault = s.fault) : next.fault ≠ some .exit := by
  have hnone : next.fault = none := (congrArg Shared.fault hshared).trans (hkept.trans hfault)
  rw [hnone]
  exact fun impossible => nomatch impossible

theorem pollerEffect_stays {i : Fin n} (hfault : s.fault = none) (rested : RowsRested s)
    (effect : PollerEffect i s next) : next.fault ≠ some .exit := by
  cases effect with
  | fails fault hshared _ hwhy =>
      have hnext : next.fault = some fault := congrArg Shared.fault hshared
      rw [hnext]
      intro hexit
      obtain ⟨host, round, number, progress, row, reply, hpc, hrow, hreply, hpoll⟩ :=
        hwhy (Option.some.inj hexit)
      obtain ⟨sample, hsample, hread⟩ := pollRow_exit hpoll
      rw [hreply sample hsample] at hread
      refine hread (rested.pending i host number ?_ number row (Nat.le_refl _) hrow)
      rw [hpc]
      rfl
  | moves _ _ hshared _ => exact fault_kept hfault hshared rfl
  | leaves _ _ _ hshared _ _ => exact fault_kept hfault hshared rfl
  | enters _ _ hshared _ _ => exact fault_kept hfault hshared rfl
  | takes _ _ _ hshared _ _ => exact fault_kept hfault hshared rfl
  | leavesLoop _ _ _ _ hshared _ _ => exact fault_kept hfault hshared rfl
  | queries _ _ _ _ _ _ _ _ _ _ _ _ _ hshared _ _ _ => exact fault_kept hfault hshared rfl
  | finishes _ _ _ _ hshared _ _ => exact fault_kept hfault hshared rfl
  | endsRound _ hshared _ => exact fault_kept hfault hshared rfl
  | returns _ _ _ hshared _ _ => exact fault_kept hfault hshared rfl

theorem step_stays {label : Label n} (rested : RowsRested s)
    (hstep : step config label s = some next) : next.fault ≠ some .exit := by
  obtain ⟨hfault, effect⟩ := step_effect hstep
  cases effect with
  | ticks ms hnext =>
      subst hnext
      exact fault_kept hfault rfl rfl
  | polls i _ _ _ effect _ => exact pollerEffect_stays hfault rested effect
  | monitors _ _ effect =>
      cases effect.effect with
      | resets _ hshared _ => exact fault_kept hfault hshared rfl
      | ends _ _ _ hshared => exact fault_kept hfault hshared rfl
      | moves hshared _ => exact fault_kept hfault hshared rfl
  | handles thread _ effect => exact fault_kept hfault effect.shared rfl
  | calls _ _ _ hnext | logs _ _ _ _ hnext | signals _ _ _ hnext =>
      subst hnext
      exact fault_kept hfault rfl rfl

/-- The rows of the hosts in work are rested, and the program has not been left
by `calculate_rate`. -/
structure NeverExited (s : State n) : Prop where
  rested : RowsRested s
  stays : s.fault ≠ some .exit

theorem neverExited_start (hosts : List Queryhost) (clock : Nat) (nextIteration : Int)
    (statistics : Statistics) :
    NeverExited (State.start hosts clock nextIteration statistics : State n) :=
  ⟨rowsRested_start hosts clock nextIteration statistics, fun impossible => nomatch impossible⟩

theorem neverExited_keeps :
    Transition.Keeps (step config) (fun label (s : State n) => HandsOutRested label s)
      NeverExited := by
  intro label s next guarded invariant hstep
  exact ⟨rowsRested_step guarded invariant.rested hstep, step_stays invariant.rested hstep⟩

/-! ## Runs -/

/-- If each host that is handed out is rested, the branch that can't happen does
not happen. -/
theorem rates_never_exit {hosts : List Queryhost} {clock : Nat} {nextIteration : Int}
    {statistics : Statistics} {labels : List (Label n)} {final : State n}
    (rested : Transition.Guarded (step config) HandsOutRested labels
      (State.start hosts clock nextIteration statistics))
    (hrun : Transition.run (step config) labels
      (State.start hosts clock nextIteration statistics) = some final) :
    final.fault ≠ some .exit := by
  have start : NeverExited (State.start hosts clock nextIteration statistics : State n) :=
    neverExited_start hosts clock nextIteration statistics
  exact (neverExited_keeps.run rested start hrun).stays

/-- An interval of one second. -/
def everySecond : Rtgconf := { defaultRtgconf with interval := 1 }

/-- The poller waits, the monitor starts a round at once, and the host answers
one second later. -/
def firstRound : List (Label 1) :=
  pollerSteps onlyPoller 5 ++ [.tick 250] ++ monitorSteps 9 ++ pollerSteps onlyPoller 10 ++
    [.tick 1000] ++ [.poller onlyPoller { reply := some 1500 }] ++ pollerSteps onlyPoller 16

/-- The monitor ends the round and starts the next one, and the host answers at
once. -/
def secondRound : List (Label 1) :=
  monitorSteps 33 ++ pollerSteps onlyPoller 10 ++ [.poller onlyPoller { reply := some 1600 }]

/-- With a second between the rounds nothing goes wrong. -/
theorem rates_never_exit_two_rounds :
    ∃ final, Transition.run (step everySecond) (firstRound ++ [.tick 1000] ++ secondRound)
        (State.start oneCounter 1299999999750 0 Statistics.initial) = some final ∧
      final.handedOut = [0] ∧ final.fault ≠ some .exit :=
  ⟨_, rfl, rfl, rates_never_exit
    (by decide +kernel : Transition.Guarded (step everySecond) HandsOutRested
      (firstRound ++ [.tick 1000] ++ secondRound)
      (State.start oneCounter 1299999999750 0 Statistics.initial)) rfl⟩

/-- The second round follows in the second in which the first one ended. -/
theorem overrun_exits :
    1 ≤ everySecond.interval ∧
    ∃ final, Transition.run (step everySecond) (firstRound ++ secondRound)
        (State.start oneCounter 1299999999750 0 Statistics.initial) = some final ∧
      final.fault = some .exit :=
  ⟨by decide, _, rfl, rfl⟩

end ClusteredPoller.Threads
