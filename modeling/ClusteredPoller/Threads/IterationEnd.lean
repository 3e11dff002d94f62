import ClusteredPoller.Library.Census
import ClusteredPoller.Threads.HostExclusion

/-!
# When an iteration is over

`monitor_run` takes an iteration for finished when no thread is active.  This
says something only if the pollers have begun: from the broadcast until the
first poller has counted itself in, no thread is active either.  Once a host
has been handed out, the count can be relied on.
-/

namespace ClusteredPoller.Threads

open Library Library.Census Poller State

variable {n : Nat} {config : Rtgconf} {s next : State n} {i : Fin n}

/-- While the monitor is in `end_iteration`, every host has been handed out and
its `process_host` has returned since the start of the iteration. -/
def AllPolled (s : State n) : Prop :=
  s.monitor.pc.inEnd = true →
    ∀ host, host < s.hosts.length → host ∈ s.handedOut ∧ host ∈ s.finished

/-- No signal arrives, the monitor finds no thread active only after a host was
handed out, and no poller's iterations wrap. -/
def EndsAfterHandOut : Label n → State n → Prop
  | .signal _ _, _ => False
  | .monitor, s =>
      s.monitor.pc = .endTest → s.activeThreads = 0 → s.monitor.thisIteration ≠ 0 →
        0 < s.nextHost ∨ s.hosts = []
  | .poller i _, s => (s.pollers i).pc = .roundEnd → (s.pollers i).iterations + 1 ≠ 0
  | _, _ => True

instance : ∀ (label : Label n) (s : State n), Decidable (EndsAfterHandOut label s)
  | .signal _ _, _ => .isFalse not_false
  | .monitor, s =>
      inferInstanceAs
        (Decidable (s.monitor.pc = .endTest → s.activeThreads = 0 → s.monitor.thisIteration ≠ 0 →
          0 < s.nextHost ∨ s.hosts = []))
  | .poller i _, s =>
      inferInstanceAs
        (Decidable ((s.pollers i).pc = .roundEnd → (s.pollers i).iterations + 1 ≠ 0))
  | .tick _, _ | .callsCllog _, _ | .cllog _, _ | .handler _, _ => .isTrue trivial

/-! ## The count of active threads -/

/-- `active_threads` is the number of pollers that are counted. -/
def CountsActive (s : State n) : Prop :=
  s.activeThreads.toNat = census PollerThread.counted s.pollers

theorem countsActive_same {poller : PollerThread} (counts : CountsActive s)
    (hactive : next.activeThreads = s.activeThreads)
    (hpollers : next.pollers = Function.update s.pollers i poller)
    (hsame : poller.counted = (s.pollers i).counted) : CountsActive next := by
  rw [CountsActive, hactive, hpollers, census_update_same hsame]
  exact counts

theorem countsActive_of_pollers (counts : CountsActive s)
    (hactive : next.activeThreads = s.activeThreads) (hpollers : next.pollers = s.pollers) :
    CountsActive next := by
  rw [CountsActive, hactive, hpollers]
  exact counts

/-- Behind the first host, the loop over the hosts keeps a poller counted. -/
theorem counted_of_inHostLoop (hloop : (s.pollers i).pc.inHostLoop = true) :
    (s.pollers i).counted = true :=
  PollerPc.countedAfter_of_inHostLoop hloop _

theorem countsActive_leaves {poller : PollerThread} (counts : CountsActive s)
    (hcounted : (s.pollers i).counted = true) (hafter : poller.counted = false)
    (hactive : next.activeThreads = s.activeThreads - 1)
    (hpollers : next.pollers = Function.update s.pollers i poller) : CountsActive next := by
  rw [CountsActive, hactive, hpollers]
  exact (toNat_sub_one counts hcounted hafter).2

theorem countsActive_enters {poller : PollerThread} (hthreads : n < 2 ^ 32)
    (counts : CountsActive s) (hcounted : (s.pollers i).counted = false)
    (hafter : poller.counted = true) (hactive : next.activeThreads = s.activeThreads + 1)
    (hpollers : next.pollers = Function.update s.pollers i poller) : CountsActive next := by
  rw [CountsActive, hactive, hpollers]
  exact toNat_add_one hthreads counts hcounted hafter

theorem pollerEffect_countsActive (hthreads : n < 2 ^ 32) (counts : CountsActive s)
    (hstop : s.threadStopRequested = false)
    (hiterations : (s.pollers i).pc = .roundEnd → (s.pollers i).iterations + 1 ≠ 0)
    (effect : PollerEffect i s next) : CountsActive next := by
  have hafterLoop : ∀ {poller : PollerThread}, poller.pc = .roundEnd → poller.counted = true := by
    intro poller hpc
    rw [PollerThread.counted, hpc]
    rfl
  cases effect with
  | moves pc like hshared hpollers =>
      exact countsActive_same counts (congrArg Shared.activeThreads hshared) hpollers like.counted
  | leaves poller _ hcounted hshared hpollers hafter =>
      refine countsActive_leaves counts hcounted ?_ (congrArg Shared.activeThreads hshared) hpollers
      rw [PollerThread.counted, hafter]
      rfl
  | enters poller hpc hshared hpollers hafter =>
      refine countsActive_enters hthreads counts ?_ ?_ (congrArg Shared.activeThreads hshared)
        hpollers
      · rw [PollerThread.counted, hpc]
        rfl
      · rw [PollerThread.counted, hafter]
        rfl
  | takes poller hpc _ hshared hpollers hafter =>
      refine countsActive_same counts (congrArg Shared.activeThreads hshared) hpollers ?_
      rw [PollerThread.counted, PollerThread.counted, hafter, hpc]
      rfl
  | leavesLoop poller hpc _ _ hshared hpollers hafter =>
      refine countsActive_same counts (congrArg Shared.activeThreads hshared) hpollers ?_
      rw [hafterLoop hafter, counted_of_inHostLoop hpc]
  | queries poller host round number progress row row' reply progress' hpc _ _ _ hshared hpollers
      hafter _ =>
      refine countsActive_same counts (congrArg Shared.activeThreads hshared) hpollers ?_
      rw [counted_of_inHostLoop (by rw [hpc]; rfl), PollerThread.counted]
      exact PollerPc.countedAfter_of_inHostLoop (PollerPc.inHostLoop_of_inWork hafter) _
  | finishes poller host round hpc hshared hpollers hafter =>
      refine countsActive_same counts (congrArg Shared.activeThreads hshared) hpollers ?_
      rw [PollerThread.counted, PollerThread.counted, hafter, hpc]
      rfl
  | endsRound hpc hshared hpollers =>
      refine countsActive_same counts (congrArg Shared.activeThreads hshared) hpollers ?_
      rw [hafterLoop hpc]
      exact decide_eq_true (UInt32.pos_iff_ne_zero.mpr (hiterations hpc))
  | returns _ hrequested => exact absurd hrequested (by rw [hstop]; decide)
  | fails fault hshared hpollers _ =>
      exact countsActive_of_pollers counts (congrArg Shared.activeThreads hshared) hpollers

/-! ## The hosts of a round -/

/-- The hosts handed out are finished or in work, and as long as some are left,
a poller is in its loop over the hosts, if any has begun. -/
structure RoundAccounted (s : State n) : Prop where
  inOrder : HandedOutInOrder s
  left : 0 < s.nextHost → s.nextHost < s.hosts.length → ∃ i, (s.pollers i).pc.inHostLoop = true
  accounted : ∀ host, host < s.nextHost →
    host ∈ s.finished ∨ ∃ i, (s.pollers i).pc.inWork = some (host, s.round)

/-- A step that changes neither the round nor what was handed out in it. -/
structure KeepsRound (s next : State n) : Prop where
  nextHost : next.nextHost = s.nextHost
  length : next.hosts.length = s.hosts.length
  round : next.round = s.round
  handedOut : next.handedOut = s.handedOut

theorem keepsRound_of_shared {shared : Shared} (hshared : next.shared = shared)
    (hnext : shared.nextHost = s.nextHost) (hlength : shared.hosts.length = s.hosts.length)
    (hround : shared.round = s.round) (hhanded : shared.handedOut = s.handedOut) :
    KeepsRound s next :=
  ⟨(congrArg Shared.nextHost hshared).trans hnext,
    (congrArg (fun shared => shared.hosts.length) hshared).trans hlength,
    (congrArg Shared.round hshared).trans hround,
    (congrArg Shared.handedOut hshared).trans hhanded⟩

theorem KeepsRound.inOrder (kept : KeepsRound s next) (inOrder : HandedOutInOrder s) :
    HandedOutInOrder next := by
  rw [HandedOutInOrder, kept.handedOut, kept.nextHost]
  exact inOrder

/-- No poller moves. -/
theorem roundAccounted_of_pollers (round : RoundAccounted s) (kept : KeepsRound s next)
    (hfinished : next.finished = s.finished) (hpollers : next.pollers = s.pollers) :
    RoundAccounted next := by
  refine ⟨kept.inOrder round.inOrder, ?_, ?_⟩
  · intro hbegun hleft
    rw [kept.nextHost] at hbegun hleft
    rw [kept.length] at hleft
    rw [hpollers]
    exact round.left hbegun hleft
  · intro host hhost
    rw [kept.nextHost] at hhost
    rw [hfinished, hpollers, kept.round]
    exact round.accounted host hhost

theorem accounted_update {poller : PollerThread}
    (accounted : ∀ host, host < s.nextHost →
      host ∈ s.finished ∨ ∃ i, (s.pollers i).pc.inWork = some (host, s.round))
    (kept : KeepsRound s next) (hfinished : next.finished = s.finished)
    (hpollers : next.pollers = Function.update s.pollers i poller)
    (hinWork : poller.pc.inWork = (s.pollers i).pc.inWork) :
    ∀ host, host < next.nextHost →
      host ∈ next.finished ∨ ∃ i, (next.pollers i).pc.inWork = some (host, next.round) := by
  intro host hhost
  rw [kept.nextHost] at hhost
  rw [hfinished, kept.round]
  rcases accounted host hhost with hdone | ⟨j, hj⟩
  · exact Or.inl hdone
  · refine Or.inr ⟨j, ?_⟩
    rw [hpollers]
    by_cases hij : j = i
    · rw [hij, Function.update_self, hinWork, ← hij]
      exact hj
    · rw [Function.update_of_ne hij]
      exact hj

/-- One poller moves and keeps its place and its host. -/
theorem roundAccounted_update {poller : PollerThread} (round : RoundAccounted s)
    (kept : KeepsRound s next) (hfinished : next.finished = s.finished)
    (hpollers : next.pollers = Function.update s.pollers i poller)
    (hinWork : poller.pc.inWork = (s.pollers i).pc.inWork)
    (hloop : (s.pollers i).pc.inHostLoop = true → poller.pc.inHostLoop = true) :
    RoundAccounted next := by
  refine ⟨kept.inOrder round.inOrder, ?_,
    accounted_update round.accounted kept hfinished hpollers hinWork⟩
  intro hbegun hleft
  rw [kept.nextHost] at hbegun hleft
  rw [kept.length] at hleft
  obtain ⟨j, hj⟩ := round.left hbegun hleft
  refine ⟨j, ?_⟩
  rw [hpollers]
  by_cases hij : j = i
  · rw [hij, Function.update_self]
    rw [hij] at hj
    exact hloop hj
  · rw [Function.update_of_ne hij]
    exact hj

theorem roundAccounted_takes {poller : PollerThread} (round : RoundAccounted s)
    (hnext : next.nextHost = s.nextHost + 1) (hround : next.round = s.round)
    (hhanded : next.handedOut = s.handedOut ++ [s.nextHost])
    (hfinished : next.finished = s.finished)
    (hpc : (s.pollers i).pc = .nextHost)
    (hpollers : next.pollers = Function.update s.pollers i poller)
    (hafter : poller.pc = .processing s.nextHost s.round .openSession) : RoundAccounted next := by
  have hself : (next.pollers i).pc = .processing s.nextHost s.round .openSession := by
    rw [hpollers, Function.update_self, hafter]
  refine ⟨?_, ?_, ?_⟩
  · rw [HandedOutInOrder, hhanded, hnext, round.inOrder, List.range_succ]
  · intro _ _
    exact ⟨i, by rw [hself]; rfl⟩
  · intro host hhost
    rw [hfinished, hround]
    rw [hnext] at hhost
    rcases Nat.lt_succ_iff_lt_or_eq.mp hhost with hbefore | rfl
    · rcases round.accounted host hbefore with hdone | ⟨j, hj⟩
      · exact Or.inl hdone
      · have hij : j ≠ i := by
          rintro rfl
          rw [hpc] at hj
          cases hj
        refine Or.inr ⟨j, ?_⟩
        rw [hpollers, Function.update_of_ne hij]
        exact hj
    · exact Or.inr ⟨i, by rw [hself]; rfl⟩

/-- The finished host moves from its poller to the finished ones. -/
theorem roundAccounted_finishes {poller : PollerThread} {host round : Nat}
    (accounted : RoundAccounted s) (kept : KeepsRound s next)
    (hfinished : next.finished = (s.finishHost host round).finished)
    (hpc : (s.pollers i).pc = .processing host round .statsUnlock)
    (hpollers : next.pollers = Function.update s.pollers i poller)
    (hafter : poller.pc = .hostTest) : RoundAccounted next := by
  refine ⟨kept.inOrder accounted.inOrder, ?_, ?_⟩
  · intro _ _
    refine ⟨i, ?_⟩
    rw [hpollers, Function.update_self, hafter]
    rfl
  · intro other hother
    rw [kept.nextHost] at hother
    rw [kept.round, hfinished, finishHost]
    rcases accounted.accounted other hother with hdone | ⟨j, hj⟩
    · refine Or.inl ?_
      dsimp only
      split
      · exact List.mem_append_left _ hdone
      · exact hdone
    · by_cases hij : j = i
      · rw [hij, hpc] at hj
        cases hj
        refine Or.inl ?_
        rw [if_pos rfl]
        exact List.mem_append_right _ (List.mem_singleton_self _)
      · refine Or.inr ⟨j, ?_⟩
        rw [hpollers, Function.update_of_ne hij]
        exact hj

theorem setRow_length {host number : Nat} {row : Queryrow} :
    (s.setRow host number row).hosts.length = s.hosts.length :=
  List.length_modify _ _ _

theorem pollerEffect_roundAccounted (round : RoundAccounted s)
    (hstop : s.threadStopRequested = false) (effect : PollerEffect i s next) :
    RoundAccounted next := by
  cases effect with
  | moves pc like hshared hpollers =>
      refine roundAccounted_update round (keepsRound_of_shared hshared rfl rfl rfl rfl)
        (congrArg Shared.finished hshared) hpollers like.inWork fun hloop => ?_
      exact like.inHostLoop.trans hloop
  | leaves poller hpc _ hshared hpollers hafter =>
      refine roundAccounted_update round (keepsRound_of_shared hshared rfl rfl rfl rfl)
        (congrArg Shared.finished hshared) hpollers ?_ ?_
      · rw [hafter, hpc]
        rfl
      · rw [hpc]
        exact fun impossible => nomatch impossible
  | enters poller hpc hshared hpollers hafter =>
      refine roundAccounted_update round (keepsRound_of_shared hshared rfl rfl rfl rfl)
        (congrArg Shared.finished hshared) hpollers ?_ ?_
      · rw [hafter, hpc]
        rfl
      · rw [hafter]
        exact fun _ => rfl
  | takes poller hpc _ hshared hpollers hafter =>
      exact roundAccounted_takes round (congrArg Shared.nextHost hshared)
        (congrArg Shared.round hshared) (congrArg Shared.handedOut hshared)
        (congrArg Shared.finished hshared) hpc hpollers hafter
  | leavesLoop poller _ hinWork hwhy hshared hpollers hafter =>
      have kept : KeepsRound s next := keepsRound_of_shared hshared rfl rfl rfl rfl
      have hall : s.hosts.length ≤ s.nextHost :=
        hwhy.resolve_right fun hrequested => absurd hrequested (by rw [hstop]; decide)
      refine ⟨kept.inOrder round.inOrder, ?_, ?_⟩
      · intro _ hleft
        rw [kept.nextHost, kept.length] at hleft
        exact absurd hleft (Nat.not_lt.mpr hall)
      · refine accounted_update round.accounted kept (congrArg Shared.finished hshared) hpollers ?_
        rw [hafter, hinWork]
        rfl
  | queries poller host round' number progress row row' reply progress' hpc _ _ _ hshared hpollers
      hafter _ =>
      refine roundAccounted_update round (keepsRound_of_shared hshared rfl setRow_length rfl rfl)
        (congrArg Shared.finished hshared) hpollers ?_ ?_
      · rw [hafter, hpc]
        rfl
      · exact fun _ => PollerPc.inHostLoop_of_inWork hafter
  | finishes poller host round' hpc hshared hpollers hafter =>
      exact roundAccounted_finishes round (keepsRound_of_shared hshared rfl rfl rfl rfl)
        (congrArg Shared.finished hshared) hpc hpollers hafter
  | endsRound hpc hshared hpollers =>
      refine roundAccounted_update round (keepsRound_of_shared hshared rfl rfl rfl rfl)
        (congrArg Shared.finished hshared) hpollers ?_ ?_
      · rw [hpc]
        rfl
      · rw [hpc]
        exact fun impossible => nomatch impossible
  | returns _ hrequested => exact absurd hrequested (by rw [hstop]; decide)
  | fails fault hshared hpollers _ =>
      exact roundAccounted_of_pollers round (keepsRound_of_shared hshared rfl rfl rfl rfl)
        (congrArg Shared.finished hshared) hpollers

/-- After the reset nothing has been handed out. -/
theorem roundAccounted_resets (hshared : next.shared = s.resetNext.shared) :
    RoundAccounted next := by
  have hnext : next.nextHost = 0 := congrArg Shared.nextHost hshared
  refine ⟨?_, ?_, ?_⟩
  · have hhanded : next.handedOut = [] := congrArg Shared.handedOut hshared
    rw [HandedOutInOrder, hhanded, hnext]
    rfl
  · intro hbegun
    rw [hnext] at hbegun
    exact absurd hbegun (Nat.lt_irrefl 0)
  · intro host hhost
    rw [hnext] at hhost
    exact absurd hhost (Nat.not_lt_zero host)

/-! ## The end of an iteration -/

/-- With no thread active behind a hand-out, all hosts are finished. -/
theorem polled_of_inactive (counts : CountsActive s) (round : RoundAccounted s)
    (hactive : s.activeThreads = 0) (hbegun : 0 < s.nextHost ∨ s.hosts = []) :
    ∀ host, host < s.hosts.length → host ∈ s.handedOut ∧ host ∈ s.finished := by
  intro host hhost
  have hcensus : census PollerThread.counted s.pollers = 0 := by
    rw [← counts, hactive]
    rfl
  have hidle : ∀ i, (s.pollers i).pc.inHostLoop = false := by
    intro i
    cases hloop : (s.pollers i).pc.inHostLoop with
    | false => rfl
    | true =>
        have hcounted := counted_of_inHostLoop hloop
        rw [census_eq_zero_iff.mp hcensus i] at hcounted
        cases hcounted
  have hbegun : 0 < s.nextHost := hbegun.resolve_right fun hnone => by
    rw [hnone] at hhost
    exact Nat.not_lt_zero host hhost
  have hall : s.hosts.length ≤ s.nextHost := Nat.le_of_not_lt fun hleft => by
    obtain ⟨i, hi⟩ := round.left hbegun hleft
    rw [hidle i] at hi
    cases hi
  have hhanded : host < s.nextHost := Nat.lt_of_lt_of_le hhost hall
  constructor
  · rw [round.inOrder]
    exact List.mem_range.mpr hhanded
  · rcases round.accounted host hhanded with hdone | ⟨i, hi⟩
    · exact hdone
    · have hloop := PollerPc.inHostLoop_of_inWork hi
      rw [hidle i] at hloop
      cases hloop

/-- A step of a poller loses no record. -/
structure Records (s next : State n) : Prop where
  length : next.hosts.length = s.hosts.length
  handedOut : s.handedOut ⊆ next.handedOut
  finished : s.finished ⊆ next.finished

theorem records_of_shared {shared : Shared} (hshared : next.shared = shared)
    (hlength : shared.hosts.length = s.hosts.length) (hhanded : s.handedOut ⊆ shared.handedOut)
    (hfinished : s.finished ⊆ shared.finished) : Records s next := by
  have hhanded' : next.handedOut = shared.handedOut := congrArg Shared.handedOut hshared
  have hfinished' : next.finished = shared.finished := congrArg Shared.finished hshared
  refine ⟨(congrArg (fun shared => shared.hosts.length) hshared).trans hlength, ?_, ?_⟩
  · rw [hhanded']
    exact hhanded
  · rw [hfinished']
    exact hfinished

theorem pollerEffect_records (effect : PollerEffect i s next) : Records s next := by
  cases effect with
  | moves _ _ hshared _ =>
      exact records_of_shared hshared rfl (List.Subset.refl _) (List.Subset.refl _)
  | leaves _ _ _ hshared _ _ =>
      exact records_of_shared hshared rfl (List.Subset.refl _) (List.Subset.refl _)
  | enters _ _ hshared _ _ =>
      exact records_of_shared hshared rfl (List.Subset.refl _) (List.Subset.refl _)
  | takes _ _ _ hshared _ _ =>
      exact records_of_shared hshared rfl (List.subset_append_left _ _) (List.Subset.refl _)
  | leavesLoop _ _ _ _ hshared _ _ =>
      exact records_of_shared hshared rfl (List.Subset.refl _) (List.Subset.refl _)
  | queries _ _ _ _ _ _ _ _ _ _ _ _ _ hshared _ _ _ =>
      exact records_of_shared hshared setRow_length (List.Subset.refl _) (List.Subset.refl _)
  | finishes _ host round _ hshared _ _ =>
      refine records_of_shared hshared rfl (List.Subset.refl _) ?_
      change s.finished ⊆ if round = s.round then s.finished ++ [host] else s.finished
      split
      · exact List.subset_append_left _ _
      · exact List.Subset.refl _
  | endsRound _ hshared _ =>
      exact records_of_shared hshared rfl (List.Subset.refl _) (List.Subset.refl _)
  | returns _ _ _ hshared _ _ =>
      exact records_of_shared hshared rfl (List.Subset.refl _) (List.Subset.refl _)
  | fails _ hshared _ _ =>
      exact records_of_shared hshared rfl (List.Subset.refl _) (List.Subset.refl _)

theorem Records.allPolled (records : Records s next) (polled : AllPolled s)
    (hend : next.monitor.pc.inEnd = true → s.monitor.pc.inEnd = true) : AllPolled next := by
  intro hnext host hhost
  rw [records.length] at hhost
  obtain ⟨hhanded, hfinished⟩ := polled (hend hnext) host hhost
  exact ⟨records.handedOut hhanded, records.finished hfinished⟩

/-! ## The invariant -/

/-- No stop is under way, the threads are counted right, the hosts of the round
are accounted for, and an ended iteration is complete. -/
structure IterationSound (s : State n) : Prop where
  running : s.threadStopRequested = false
  unsignalled : ∀ thread, s.handlers thread = []
  counts : CountsActive s
  round : RoundAccounted s
  polled : AllPolled s

theorem iterationSound_start (hosts : List Queryhost) (clock : Nat) (nextIteration : Int)
    (statistics : Statistics) :
    IterationSound (State.start hosts clock nextIteration statistics : State n) := by
  refine ⟨rfl, fun _ => rfl, ?_, ⟨rfl, ?_, ?_⟩, ?_⟩
  · exact (census_eq_zero_iff.mpr fun _ => rfl).symm
  · exact fun hbegun => absurd hbegun (Nat.lt_irrefl 0)
  · exact fun host hhost => absurd hhost (Nat.not_lt_zero host)
  · exact fun impossible => nomatch impossible

theorem iterationSound_polls (hthreads : n < 2 ^ 32) {meets : Meeting}
    (guarded : EndsAfterHandOut (.poller i meets) s) (sound : IterationSound s)
    (effect : PollerEffect i s next) (houtside : next.outside = s.outside) :
    IterationSound next := by
  have hmonitor : next.monitor = s.monitor := congrArg Outside.monitor houtside
  have hhandlers : next.handlers = s.handlers := congrArg Outside.handlers houtside
  refine ⟨?_, ?_, ?_, ?_, ?_⟩
  · exact (congrArg Outside.threadStopRequested houtside).trans sound.running
  · rw [hhandlers]
    exact sound.unsignalled
  · exact pollerEffect_countsActive hthreads sound.counts sound.running guarded effect
  · exact pollerEffect_roundAccounted sound.round sound.running effect
  · refine (pollerEffect_records effect).allPolled sound.polled ?_
    rw [hmonitor]
    exact id

theorem iterationSound_monitors (guarded : EndsAfterHandOut .monitor s) (sound : IterationSound s)
    (effect : MonitorStep s next) : IterationSound next := by
  have hrunning := effect.stop.trans sound.running
  have hhandlers : ∀ thread, next.handlers thread = [] := by
    rw [effect.handlers]
    exact sound.unsignalled
  cases effect.effect with
  | resets hpc hshared hafter =>
      refine ⟨hrunning, hhandlers, ?_, roundAccounted_resets hshared, ?_⟩
      · exact countsActive_of_pollers sound.counts (congrArg Shared.activeThreads hshared)
          effect.pollers
      · intro hend
        rw [hafter] at hend
        cases hend
  | ends hpc hactive hstarted hshared =>
      have kept : KeepsRound s next := keepsRound_of_shared hshared rfl rfl rfl rfl
      have hbegun := guarded hpc hactive hstarted
      have hall := polled_of_inactive sound.counts sound.round hactive hbegun
      refine ⟨hrunning, hhandlers, ?_, ?_, ?_⟩
      · exact countsActive_of_pollers sound.counts (congrArg Shared.activeThreads hshared)
          effect.pollers
      · exact roundAccounted_of_pollers sound.round kept (congrArg Shared.finished hshared)
          effect.pollers
      · intro _ host hhost
        rw [kept.length] at hhost
        obtain ⟨hhanded, hfinished⟩ := hall host hhost
        have hfinished' : next.finished = s.finished := congrArg Shared.finished hshared
        rw [kept.handedOut, hfinished']
        exact ⟨hhanded, hfinished⟩
  | moves hshared hend =>
      refine ⟨hrunning, hhandlers, ?_, ?_, ?_⟩
      · exact countsActive_of_pollers sound.counts (congrArg Shared.activeThreads hshared)
          effect.pollers
      · exact roundAccounted_of_pollers sound.round
          (keepsRound_of_shared hshared rfl rfl rfl rfl) (congrArg Shared.finished hshared)
          effect.pollers
      · exact (records_of_shared hshared rfl (List.Subset.refl _)
          (List.Subset.refl _)).allPolled sound.polled hend

theorem iterationSound_keeps (hthreads : n < 2 ^ 32) :
    Transition.Keeps (step config) (fun label (s : State n) => EndsAfterHandOut label s)
      IterationSound := by
  intro label s next guarded sound hstep
  obtain ⟨_, effect⟩ := step_effect hstep
  cases effect with
  | ticks _ hnext | calls _ _ _ hnext | logs _ _ _ _ hnext =>
      subst hnext
      exact ⟨sound.running, sound.unsignalled, sound.counts,
        ⟨sound.round.inOrder, sound.round.left, sound.round.accounted⟩, sound.polled⟩
  | polls i meets _ _ effect houtside =>
      exact iterationSound_polls hthreads guarded sound effect houtside
  | monitors _ _ effect => exact iterationSound_monitors guarded sound effect
  | handles thread hhandler _ =>
      unfold handlerStep at hhandler
      rw [sound.unsignalled thread] at hhandler
      cases hhandler
  | signals thread signal _ _ => exact absurd guarded not_false

/-! ## Runs -/

/-- In a run in which the monitor finds no thread active only after a host was
handed out, an iteration that ends is complete.  The number of threads is an
`unsigned`. -/
theorem ended_iterations_complete {hosts : List Queryhost} {clock : Nat} {nextIteration : Int}
    {statistics : Statistics} {labels : List (Label n)} {final : State n} (hthreads : n < 2 ^ 32)
    (guarded : Transition.Guarded (step config) EndsAfterHandOut labels
      (State.start hosts clock nextIteration statistics))
    (hrun : Transition.run (step config) labels
      (State.start hosts clock nextIteration statistics) = some final) : AllPolled final := by
  have start : IterationSound (State.start hosts clock nextIteration statistics : State n) :=
    iterationSound_start hosts clock nextIteration statistics
  exact ((iterationSound_keeps hthreads).run guarded start hrun).polled

/-- The condition is needed: an iteration that ends before any host was handed
out is not complete. -/
theorem early_end_incomplete (inOrder : HandedOutInOrder s) (hpc : s.monitor.pc = .endTest)
    (hactive : s.activeThreads = 0) (hstarted : s.monitor.thisIteration ≠ 0)
    (hnone : s.nextHost = 0) (hhosts : s.hosts ≠ [])
    (hstep : step config .monitor s = some next) : ¬ AllPolled next := by
  obtain ⟨_, effect⟩ := step_effect hstep
  cases effect with
  | monitors _ hmonitor _ =>
      rw [monitorStep, hpc, monitorStepAt, if_pos ⟨hactive, hstarted⟩] at hmonitor
      cases hmonitor
      intro polled
      have hfirst := (polled rfl 0 (List.length_pos_iff.mpr hhosts)).1
      change 0 ∈ s.handedOut at hfirst
      rw [inOrder, hnone] at hfirst
      exact List.not_mem_nil hfirst

/-- The monitor sleeps long enough for the poller to take the host and to
finish it. -/
def completeRun : List (Label 1) := quietRun ++ [.tick 250] ++ monitorSteps 2

theorem ended_iterations_complete_quiet :
    ∃ final, Transition.run (step defaultRtgconf) completeRun
        (State.start oneCounter 299650 0 Statistics.initial) = some final ∧
      final.monitor.pc = .ending endActions ∧ AllPolled final :=
  ⟨_, rfl, rfl, ended_iterations_complete (by decide)
    (by decide : Transition.Guarded (step defaultRtgconf) EndsAfterHandOut completeRun
      (State.start oneCounter 299650 0 Statistics.initial)) rfl⟩

/-- The poller sleeps over the monitor's pause. -/
def sleepyRun : List (Label 1) :=
  pollerSteps onlyPoller 5 ++ [.tick 250] ++ monitorSteps 9 ++ [.tick 250] ++ monitorSteps 2

/-- The iteration is ended before any host is handed out. -/
theorem sleepy_iteration_incomplete :
    (∀ thread signal, Label.signal thread signal ∉ sleepyRun) ∧
    ∃ final, Transition.run (step defaultRtgconf) sleepyRun
        (State.start oneCounter 299650 0 Statistics.initial) = some final ∧
      final.monitor.pc = .ending endActions ∧ final.handedOut = [] ∧ final.finished = [] ∧
      ¬ AllPolled final := by
  refine ⟨?_, _, rfl, rfl, rfl, rfl, fun polled => ?_⟩
  · intro thread signal
    simp [sleepyRun, pollerSteps, monitorSteps]
  · exact List.not_mem_nil (polled rfl 0 Nat.zero_lt_one).2

end ClusteredPoller.Threads
