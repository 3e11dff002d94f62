import ClusteredPoller.Threads.Effects
import Mathlib.Data.List.Range

/-!
# One poller at a time

`rtgtargets_next` never hands out a host twice between two resets.  Whether two
pollers can process the same host depends on the resets: the monitor tests
`active_threads` some steps before it resets `next_host`, and a poller that was
woken late may have taken a host in between.
-/

namespace ClusteredPoller.Threads

open Library Poller State

variable {n : Nat} {config : Rtgconf} {s next : State n}

/-- The poller is processing the host. -/
def Processes (s : State n) (i : Fin n) (host : Nat) : Prop :=
  ∃ round, (s.pollers i).pc.inWork = some (host, round)

/-- No two pollers are processing the same host, and since the last reset no
host was handed out twice. -/
structure HostsExclusive (s : State n) : Prop where
  exclusive : ∀ i j host, Processes s i host → Processes s j host → i = j
  once : s.handedOut.Nodup

/-- When the monitor resets `next_host`, no poller is processing a host. -/
def ResetsIdle : Label n → State n → Prop
  | .monitor, s => s.monitor.pc = .startReset → ∀ i, (s.pollers i).pc.inWork = none
  | _, _ => True

instance : ∀ (label : Label n) (s : State n), Decidable (ResetsIdle label s)
  | .monitor, s =>
      inferInstanceAs
        (Decidable (s.monitor.pc = .startReset → ∀ i, (s.pollers i).pc.inWork = none))
  | .tick _, _ | .poller _ _, _ | .callsCllog _, _ | .cllog _, _ | .handler _, _
  | .signal _ _, _ => .isTrue trivial

/-! ## The hand-out of hosts -/

/-- The hosts handed out are those below `next_host`, once each. -/
def HandedOutInOrder (s : State n) : Prop := s.handedOut = List.range s.nextHost

/-- A step either hands out the next host to a poller, or resets, or neither
hands out nor gives a host to any poller. -/
inductive HandOut (s next : State n) : Label n → Prop where
  | takes (i : Fin n) (meets : Meeting) (hpc : (s.pollers i).pc = .nextHost)
      (hleft : s.nextHost < s.hosts.length)
      (hnext : next.nextHost = s.nextHost + 1)
      (hhanded : next.handedOut = s.handedOut ++ [s.nextHost])
      (hinWork : (next.pollers i).pc.inWork = some (s.nextHost, s.round))
      (hothers : ∀ j, j ≠ i → next.pollers j = s.pollers j) : HandOut s next (.poller i meets)
  | resets (hpc : s.monitor.pc = .startReset) (hnext : next.nextHost = 0)
      (hhanded : next.handedOut = []) (hpollers : next.pollers = s.pollers) :
      HandOut s next .monitor
  | keeps (label : Label n) (hnext : next.nextHost = s.nextHost)
      (hhanded : next.handedOut = s.handedOut)
      (hinWork : ∀ j, (next.pollers j).pc.inWork = none ∨
        (next.pollers j).pc.inWork = (s.pollers j).pc.inWork) : HandOut s next label

/-- If one poller moves on, leaving its host or keeping it, all pollers leave
their hosts or keep them. -/
theorem inWork_update {i : Fin n} {poller : PollerThread}
    (hpollers : next.pollers = Function.update s.pollers i poller)
    (hinWork : poller.pc.inWork = none ∨ poller.pc.inWork = (s.pollers i).pc.inWork) (j : Fin n) :
    (next.pollers j).pc.inWork = none ∨ (next.pollers j).pc.inWork = (s.pollers j).pc.inWork := by
  revert j
  rw [hpollers]
  apply (Function.forall_update_iff s.pollers fun j poller =>
    poller.pc.inWork = none ∨ poller.pc.inWork = (s.pollers j).pc.inWork).mpr
  exact ⟨hinWork, fun _ _ => Or.inr rfl⟩

theorem pollerEffect_handOut {i : Fin n} {meets : Meeting} (effect : PollerEffect i s next) :
    HandOut s next (.poller i meets) := by
  cases effect with
  | moves pc like hshared hpollers =>
      exact .keeps _ (congrArg Shared.nextHost hshared) (congrArg Shared.handedOut hshared)
        (inWork_update hpollers (Or.inr like.inWork))
  | leaves poller _ _ hshared hpollers hafter =>
      exact .keeps _ (congrArg Shared.nextHost hshared) (congrArg Shared.handedOut hshared)
        (inWork_update hpollers (Or.inl (hafter ▸ rfl)))
  | enters poller _ hshared hpollers hafter =>
      exact .keeps _ (congrArg Shared.nextHost hshared) (congrArg Shared.handedOut hshared)
        (inWork_update hpollers (Or.inl (hafter ▸ rfl)))
  | takes poller hpc hleft hshared hpollers hafter =>
      refine .takes i meets hpc hleft (congrArg Shared.nextHost hshared)
        (congrArg Shared.handedOut hshared) ?_ ?_
      · rw [hpollers, Function.update_self, hafter]
        rfl
      · intro j hij
        rw [hpollers, Function.update_of_ne hij]
  | leavesLoop poller _ _ _ hshared hpollers hafter =>
      exact .keeps _ (congrArg Shared.nextHost hshared) (congrArg Shared.handedOut hshared)
        (inWork_update hpollers (Or.inl (hafter ▸ rfl)))
  | queries poller host round number progress row row' reply progress' hpc _ _ _ hshared hpollers
      hafter _ =>
      refine .keeps _ (congrArg Shared.nextHost hshared) (congrArg Shared.handedOut hshared)
        (inWork_update hpollers (Or.inr ?_))
      rw [hafter, hpc]
      rfl
  | finishes poller host round hpc hshared hpollers hafter =>
      exact .keeps _ (congrArg Shared.nextHost hshared) (congrArg Shared.handedOut hshared)
        (inWork_update hpollers (Or.inl (hafter ▸ rfl)))
  | endsRound _ hshared hpollers =>
      exact .keeps _ (congrArg Shared.nextHost hshared) (congrArg Shared.handedOut hshared)
        (inWork_update hpollers (Or.inl rfl))
  | returns poller _ _ hshared hpollers hafter =>
      exact .keeps _ (congrArg Shared.nextHost hshared) (congrArg Shared.handedOut hshared)
        (inWork_update hpollers (Or.inl (hafter ▸ rfl)))
  | fails fault hshared hpollers _ =>
      refine .keeps _ (congrArg Shared.nextHost hshared) (congrArg Shared.handedOut hshared) ?_
      exact fun j => Or.inr (by rw [hpollers])

theorem step_handOut {label : Label n} (hstep : step config label s = some next) :
    HandOut s next label := by
  obtain ⟨_, effect⟩ := step_effect hstep
  cases effect with
  | ticks ms hnext =>
      subst hnext
      exact .keeps _ rfl rfl fun _ => Or.inr rfl
  | polls i meets _ _ effect _ => exact pollerEffect_handOut effect
  | monitors _ _ effect =>
      cases effect.effect with
      | resets hpc hshared _ =>
          exact .resets hpc (congrArg Shared.nextHost hshared) (congrArg Shared.handedOut hshared)
            effect.pollers
      | ends _ _ _ hshared =>
          exact .keeps _ (congrArg Shared.nextHost hshared) (congrArg Shared.handedOut hshared)
            fun _ => Or.inr (by rw [effect.pollers])
      | moves hshared _ =>
          exact .keeps _ (congrArg Shared.nextHost hshared) (congrArg Shared.handedOut hshared)
            fun _ => Or.inr (by rw [effect.pollers])
  | handles thread _ effect =>
      exact .keeps _ (congrArg Shared.nextHost effect.shared)
        (congrArg Shared.handedOut effect.shared) fun _ => Or.inr (by rw [effect.pollers])
  | calls _ _ _ hnext | logs _ _ _ _ hnext | signals _ _ _ hnext =>
      subst hnext
      exact .keeps _ rfl rfl fun _ => Or.inr rfl

/-- Whatever the threads do, hosts are handed out in order. -/
theorem handedOutInOrder_step {label : Label n} (inOrder : HandedOutInOrder s)
    (hstep : step config label s = some next) : HandedOutInOrder next := by
  cases step_handOut hstep with
  | takes i meets _ _ hnext hhanded _ _ =>
      rw [HandedOutInOrder, hhanded, hnext, inOrder, List.range_succ]
  | resets _ hnext hhanded _ =>
      rw [HandedOutInOrder, hhanded, hnext]
      rfl
  | keeps _ hnext hhanded _ =>
      rw [HandedOutInOrder, hhanded, hnext]
      exact inOrder

/-! ## The invariant -/

/-- Every processed host was handed out since the last reset, to one poller. -/
structure InWorkExclusive (s : State n) : Prop where
  inOrder : HandedOutInOrder s
  below : ∀ i host, Processes s i host → host < s.nextHost
  exclusive : ∀ i j host, Processes s i host → Processes s j host → i = j

theorem inWorkExclusive_start (hosts : List Queryhost) (clock : Nat) (nextIteration : Int)
    (statistics : Statistics) :
    InWorkExclusive (State.start hosts clock nextIteration statistics : State n) := by
  refine ⟨rfl, ?_, ?_⟩
  · rintro i host ⟨round, impossible⟩
    cases impossible
  · rintro i j host ⟨round, impossible⟩
    cases impossible

/-- If hosts are only left or kept, whoever processes a host did so before. -/
theorem processes_of_kept
    (hinWork : ∀ j, (next.pollers j).pc.inWork = none ∨
      (next.pollers j).pc.inWork = (s.pollers j).pc.inWork)
    {j : Fin n} {host : Nat} (processes : Processes next j host) : Processes s j host := by
  obtain ⟨round, hround⟩ := processes
  rcases hinWork j with hnone | hsame
  · rw [hnone] at hround
    cases hround
  · exact ⟨round, hsame ▸ hround⟩

theorem exclusive_of_kept
    (hinWork : ∀ j, (next.pollers j).pc.inWork = none ∨
      (next.pollers j).pc.inWork = (s.pollers j).pc.inWork)
    (exclusive : ∀ i j host, Processes s i host → Processes s j host → i = j) :
    ∀ i j host, Processes next i host → Processes next j host → i = j := by
  intro i j host processes processesToo
  apply exclusive i j host
  · exact processes_of_kept hinWork processes
  · exact processes_of_kept hinWork processesToo

/-- After a hand-out the host is processed by the poller that took it, and all
others are processed as before. -/
theorem processes_of_taken {i : Fin n}
    (hinWork : (next.pollers i).pc.inWork = some (s.nextHost, s.round))
    (hothers : ∀ j, j ≠ i → next.pollers j = s.pollers j) {j : Fin n} {host : Nat}
    (processes : Processes next j host) :
    (j = i ∧ host = s.nextHost) ∨ (j ≠ i ∧ Processes s j host) := by
  obtain ⟨round, hround⟩ := processes
  by_cases hij : j = i
  · rw [hij, hinWork] at hround
    cases hround
    exact Or.inl ⟨hij, rfl⟩
  · rw [hothers j hij] at hround
    exact Or.inr ⟨hij, round, hround⟩

/-- A host that nobody processes can be handed out. -/
theorem exclusive_of_taken {i : Fin n}
    (hinWork : (next.pollers i).pc.inWork = some (s.nextHost, s.round))
    (hothers : ∀ j, j ≠ i → next.pollers j = s.pollers j)
    (hfree : ∀ j, ¬ Processes s j s.nextHost)
    (exclusive : ∀ i j host, Processes s i host → Processes s j host → i = j) :
    ∀ i j host, Processes next i host → Processes next j host → i = j := by
  intro j k host processes processesToo
  rcases processes_of_taken hinWork hothers processes with ⟨rfl, hnew⟩ | ⟨_, hbefore⟩
  · rcases processes_of_taken hinWork hothers processesToo with ⟨rfl, _⟩ | ⟨_, hbeforeToo⟩
    · rfl
    · exact absurd (hnew ▸ hbeforeToo) (hfree k)
  · rcases processes_of_taken hinWork hothers processesToo with ⟨rfl, hnew⟩ | ⟨_, hbeforeToo⟩
    · exact absurd (hnew ▸ hbefore) (hfree j)
    · exact exclusive j k host hbefore hbeforeToo

theorem inWorkExclusive_keeps :
    Transition.Keeps (step config) (fun label (s : State n) => ResetsIdle label s)
      InWorkExclusive := by
  intro label s next resetsIdle invariant hstep
  have inOrder := handedOutInOrder_step invariant.inOrder hstep
  cases step_handOut hstep with
  | takes i meets _ _ hnext hhanded hinWork hothers =>
      -- The new host is above all others that are being processed.
      have hfree : ∀ j, ¬ Processes s j s.nextHost := fun j processes =>
        Nat.lt_irrefl _ (invariant.below j s.nextHost processes)
      refine ⟨inOrder, ?_, exclusive_of_taken hinWork hothers hfree invariant.exclusive⟩
      intro j host processes
      rw [hnext]
      rcases processes_of_taken hinWork hothers processes with ⟨_, rfl⟩ | ⟨_, hbefore⟩
      · exact Nat.lt_succ_self _
      · exact Nat.lt_succ_of_lt (invariant.below j host hbefore)
  | resets hpc _ _ hpollers =>
      have hidle : ∀ j host, ¬ Processes next j host := by
        rintro j host ⟨round, hround⟩
        rw [hpollers, resetsIdle hpc j] at hround
        cases hround
      exact ⟨inOrder, fun j host processes => absurd processes (hidle j host),
        fun j _ host processes => absurd processes (hidle j host)⟩
  | keeps _ hnext _ hinWork =>
      refine ⟨inOrder, ?_, exclusive_of_kept hinWork invariant.exclusive⟩
      intro j host processes
      rw [hnext]
      exact invariant.below j host (processes_of_kept hinWork processes)

theorem HandedOutInOrder.nodup (inOrder : HandedOutInOrder s) : s.handedOut.Nodup := by
  rw [inOrder]
  exact List.nodup_range

/-- In every run, resets at bad times included, no host is handed out twice
between two resets. -/
theorem handedOut_once {hosts : List Queryhost} {clock : Nat} {nextIteration : Int}
    {statistics : Statistics} {labels : List (Label n)} {final : State n}
    (hrun : Transition.run (step config) labels
      (State.start hosts clock nextIteration statistics) = some final) :
    final.handedOut.Nodup := by
  have keeps : Transition.Keeps (step config) (fun _ _ => True)
      (HandedOutInOrder : State n → Prop) := by
    intro label s next _ inOrder hstep
    exact handedOutInOrder_step inOrder hstep
  have start : HandedOutInOrder (State.start hosts clock nextIteration statistics : State n) := rfl
  have inOrder := keeps.run (Transition.guarded_of_labels (fun _ _ _ => trivial) _) start hrun
  exact inOrder.nodup

/-- In a run in which every reset finds all pollers outside `process_host`, no
host is ever processed by two pollers, nor handed out twice between two
resets. -/
theorem hosts_exclusive {hosts : List Queryhost} {clock : Nat} {nextIteration : Int}
    {statistics : Statistics} {labels : List (Label n)} {final : State n}
    (resetsIdle : Transition.Guarded (step config) ResetsIdle labels
      (State.start hosts clock nextIteration statistics))
    (hrun : Transition.run (step config) labels
      (State.start hosts clock nextIteration statistics) = some final) :
    HostsExclusive final := by
  have invariant := inWorkExclusive_keeps.run resetsIdle
    (inWorkExclusive_start hosts clock nextIteration statistics) hrun
  exact ⟨invariant.exclusive, invariant.inOrder.nodup⟩

/-- A target list with one counter on one host. -/
def oneCounter : List Queryhost :=
  [{ host := some (CString.ofString "192.0.2.1")
     community := some (CString.ofString "readonly")
     snmpver := 2
     rows :=
       [{ queryrowCreate with
          oid := some (CString.ofString ".1.3.6.1.2.1.2.2.1.10.1")
          table := some (CString.ofString "ifInOctets_1")
          id := 1
          bits := 32
          speed := 1250000 }] }]

/-- Poller `i` takes its next `steps` steps, meeting nothing unusual. -/
def pollerSteps (i : Fin n) (steps : Nat) : List (Label n) :=
  List.replicate steps (.poller i {})

def monitorSteps (steps : Nat) : List (Label n) := List.replicate steps .monitor

def onlyPoller : Fin 1 := 0

/-- The only poller waits, the monitor starts an iteration, and the poller
processes the host, finds no other and waits again. -/
def quietRun : List (Label 1) :=
  pollerSteps onlyPoller 5 ++ [.tick 250] ++ monitorSteps 9 ++ pollerSteps onlyPoller 27

theorem hosts_exclusive_quietRun :
    ∃ final, Transition.run (step defaultRtgconf) quietRun
        (State.start oneCounter 299650 0 Statistics.initial) = some final ∧
      final.finished = [0] ∧ HostsExclusive final :=
  ⟨_, rfl, rfl, hosts_exclusive (by decide : Transition.Guarded (step defaultRtgconf) ResetsIdle
    quietRun (State.start oneCounter 299650 0 Statistics.initial)) rfl⟩

/-- Both pollers wait, and neither wakes before the monitor ends the iteration
it started.  The monitor finds no thread active when the next interval begins;
then poller 0 wakes and takes the host, the monitor resets, and poller 1 takes
the host, too. -/
def lateWakeRun : List (Label 2) :=
  pollerSteps 0 5 ++ pollerSteps 1 5 ++ [.tick 250] ++ monitorSteps 9 ++ [.tick 250] ++
    monitorSteps 28 ++ pollerSteps 0 9 ++ monitorSteps 5 ++ pollerSteps 1 9

theorem late_wake_shares_host :
    ∃ final, Transition.run (step defaultRtgconf) lateWakeRun
        (State.start oneCounter 299650 0 Statistics.initial) = some final ∧
      Processes final 0 0 ∧ Processes final 1 0 ∧ ¬ HostsExclusive final := by
  refine ⟨_, rfl, ⟨1, rfl⟩, ⟨2, rfl⟩, fun exclusive => ?_⟩
  have hsame := exclusive.exclusive 0 1 0 ⟨1, rfl⟩ ⟨2, rfl⟩
  exact absurd hsame (by decide)

end ClusteredPoller.Threads
