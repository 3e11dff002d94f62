import ClusteredPoller.Poller.Contents
import ClusteredPoller.Threads.Lock

/-!
# The samples that pollers hold

Between the loop over the rows and `process_queries`, a poller has the inserts
of its host in hand.  Nothing but the loop over the rows changes what is in them.
-/

namespace ClusteredPoller.Threads

open Poller State

variable {n : Nat}

/-- The inserts that a poller has in hand. -/
def PollerPc.inserts : PollerPc → Inserts
  | .processing _ _ (.queryRow _ progress) | .processing _ _ (.snmpLock progress)
  | .processing _ _ (.snmpUpdate progress) => progress.inserts
  | .processing _ _ (.snmpUnlock inserts) | .processing _ _ (.queueInserts inserts) => inserts
  | _ => noInserts

/-- `process_host` is about to call `process_queries`, or in it. -/
def PollerPc.queues : PollerPc → Bool
  | .processing _ _ (.queueInserts _) => true
  | _ => false

/-- The samples in these inserts. -/
def PollerPc.held (pc : PollerPc) : Multiset Push := samplesIn pc.inserts.reduceOption

/-- The slots are filled from the front. -/
def PollerPc.Packed (pc : PollerPc) : Prop :=
  ∃ inserts, pc.inserts = slots inserts ∧ inserts.length ≤ maxTables

/-- The sample that a step of a poller stores. -/
def State.storedBy (s : State n) (i : Fin n) (meets : Meeting) : List Push :=
  match (s.pollers i).pc with
  | .processing host _ (.queryRow number progress) =>
      match s.row host number with
      | some row =>
          storedSamples number row (meets.reply.map fun counter => ⟨counter, s.time⟩) progress
      | none => []
  | _ => []

section Pc

variable {pc pc' : PollerPc}

theorem packed_of_none (hinserts : pc.inserts = noInserts) : pc.Packed :=
  ⟨[], hinserts, Nat.zero_le _⟩

theorem held_of_none (hinserts : pc.inserts = noInserts) : pc.held = 0 := by
  rw [PollerPc.held, hinserts, ← slots_nil, reduceOption_slots]
  rfl

/-- What becomes of what a poller has in hand. -/
structure PollerPc.Holds (pc pc' : PollerPc) (stored : List Push) : Prop where
  packed : pc'.Packed
  held : pc'.held = stored + pc.held

theorem holds_of_inserts (packed : pc.Packed) (hinserts : pc'.inserts = pc.inserts) :
    PollerPc.Holds pc pc' [] := by
  constructor
  · rw [PollerPc.Packed, hinserts]
    exact packed
  · rw [PollerPc.held, hinserts]
    exact (zero_add _).symm

/-- A step of the loop over the rows. -/
theorem holds_of_pollRow {number : Nat} {row polledRow : Queryrow} {reply : Reply}
    {progress polled : Progress} (packed : pc.Packed) (hinserts : pc.inserts = progress.inserts)
    (hinserts' : pc'.inserts = polled.inserts)
    (hpoll : pollRow number row reply progress = .ok (polledRow, polled)) :
    PollerPc.Holds pc pc' (storedSamples number row reply progress) := by
  obtain ⟨inserts, hslots, hroom⟩ := packed
  obtain ⟨after, hafter, hlength, hsamples⟩ :=
    pollRow_samples (hinserts.symm.trans hslots) hroom hpoll
  constructor
  · exact ⟨after, hinserts'.trans hafter, hlength⟩
  · rw [PollerPc.held, PollerPc.held, hinserts', hafter, hslots, reduceOption_slots,
      reduceOption_slots]
    exact hsamples

end Pc

section Steps

variable {config : Rtgconf} {i : Fin n} {meets : Meeting} {s next : State n}

theorem inserts_goto {t : State n} {pc before : PollerPc} (hinserts : pc.inserts = before.inserts) :
    ((t.goto i pc).pollers i).pc.inserts = before.inserts := by
  rw [goto_pc]
  exact hinserts

theorem storedBy_of_ne {pc : PollerPc} (hpc : (s.pollers i).pc = pc)
    (hne : ∀ host round number progress, pc ≠ .processing host round (.queryRow number progress)) :
    s.storedBy i meets = [] := by
  unfold State.storedBy
  split
  · rename_i host round number progress hquery
    exact absurd (hpc.symm.trans hquery) (hne host round number progress)
  · rfl

theorem queryRow_holds {host round number : Nat} {progress : Progress}
    (hpc : (s.pollers i).pc = .processing host round (.queryRow number progress))
    (packed : (s.pollers i).pc.Packed)
    (hstep : hostStep config i meets host round s (.queryRow number progress) = some next) :
    PollerPc.Holds (s.pollers i).pc (next.pollers i).pc (s.storedBy i meets) := by
  have hstored : s.storedBy i meets =
      match s.row host number with
      | some row =>
          storedSamples number row (meets.reply.map fun counter => ⟨counter, s.time⟩) progress
      | none => [] := by
    rw [State.storedBy, hpc]
  have hinserts : (s.pollers i).pc.inserts = progress.inserts := by rw [hpc]; rfl
  have hnext := Option.some.inj hstep
  cases hquery : s.queryRow config meets host number progress with
  | ok queried =>
      rw [hquery] at hnext
      dsimp only at hnext
      subst hnext
      rcases queryRow_ok hquery with ⟨hrow, hqueried⟩ |
        ⟨row, row', progress', hrow, hpoll, -, hstage⟩
      · rw [hstored, hrow, goto_pc]
        refine holds_of_inserts packed ?_
        rw [hqueried]
        exact hinserts.symm
      · rw [hstored, hrow, goto_pc]
        refine holds_of_pollRow packed hinserts ?_ hpoll
        rcases hstage with hstage | hstage
        · rw [hstage]
          rfl
        · rw [hstage]
          rfl
  | error fault =>
      rw [hquery] at hnext
      dsimp only at hnext
      subst hnext
      obtain ⟨row, hrow, hpoll⟩ := queryRow_error hquery
      rw [hstored, hrow]
      dsimp only
      rw [storedSamples, hpoll]
      exact holds_of_inserts packed rfl

/-- A step of a poller stores a sample in the inserts in hand, or leaves them as
they are. -/
theorem pollerStep_holds (packed : (s.pollers i).pc.Packed)
    (hqueues : (s.pollers i).pc.queues = false)
    (hstep : pollerStep config i meets s = some next) :
    PollerPc.Holds (s.pollers i).pc (next.pollers i).pc (s.storedBy i meets) := by
  have keeps : ∀ {before : PollerPc}, (s.pollers i).pc = before →
      (∀ host round number progress,
        before ≠ .processing host round (.queryRow number progress)) →
      (next.pollers i).pc.inserts = before.inserts →
      PollerPc.Holds (s.pollers i).pc (next.pollers i).pc (s.storedBy i meets) := by
    intro before hpc hne hinserts
    rw [storedBy_of_ne hpc hne]
    exact holds_of_inserts packed (hinserts.trans (congrArg PollerPc.inserts hpc.symm))
  have hmade := hstep
  obtain ⟨pc, hpc, move⟩ := pollerStep_move hstep
  cases move with
  | processes host round stage move =>
      rw [pollerStep, hpc] at hmade
      cases move with
      | endsRows | queries | queryFails => exact queryRow_holds hpc packed hmade
      | queues | queueFails =>
          rw [hpc] at hqueues
          cases hqueues
      | openFails => exact keeps hpc nofun (congrArg PollerPc.inserts hpc)
      | _ => exact keeps hpc nofun (inserts_goto rfl)
  | endsRound =>
      refine keeps hpc nofun ?_
      dsimp only [setPoller]
      rw [Function.update_self]
      rfl
  | _ => exact keeps hpc nofun (inserts_goto rfl)

/-- A step of a poller leaves the others alone. -/
theorem PollerEffect.others (effect : PollerEffect i s next) {k : Fin n} (hki : k ≠ i) :
    next.pollers k = s.pollers k := by
  have update : ∀ {poller : PollerThread}, next.pollers = Function.update s.pollers i poller →
      next.pollers k = s.pollers k := by
    intro poller hpollers
    rw [hpollers, Function.update_of_ne hki]
  cases effect with
  | moves _ _ _ hpollers => exact update hpollers
  | leaves _ _ _ _ hpollers => exact update hpollers
  | enters _ _ _ hpollers => exact update hpollers
  | takes _ _ _ _ hpollers => exact update hpollers
  | leavesLoop _ _ _ _ _ hpollers => exact update hpollers
  | queries _ _ _ _ _ _ _ _ _ _ _ _ _ _ hpollers => exact update hpollers
  | finishes _ _ _ _ _ hpollers => exact update hpollers
  | endsRound _ _ hpollers => exact update hpollers
  | returns _ _ _ _ hpollers => exact update hpollers
  | fails _ _ hpollers => rw [hpollers]

/-- The sample that a step stores. -/
def State.stores (s : State n) : Label n → List Push
  | .poller i meets => s.storedBy i meets
  | _ => []

/-- A poller is about to step outside of `process_queries`, or another thread. -/
def State.clear (s : State n) : Label n → Bool
  | .poller i _ => !(s.pollers i).pc.queues
  | _ => true

/-- The pollers hold what they have held, and what the step stores. -/
theorem step_holds {label : Label n} (packed : ∀ i, (s.pollers i).pc.Packed)
    (hclear : s.clear label = true) (hstep : step config label s = some next) :
    (∃ i, PollerPc.Holds (s.pollers i).pc (next.pollers i).pc (s.stores label) ∧
        (s.pollers i).pc.queues = false ∧ (s.pollers i).pc ≠ .returned ∧
        ∀ k, k ≠ i → next.pollers k = s.pollers k) ∨
      (next.pollers = s.pollers ∧ s.stores label = []) := by
  cases (step_effect hstep).2 with
  | polls i meets _ hmade effect _ =>
      have hqueues : (s.pollers i).pc.queues = false := Bool.not_eq_true' _ |>.mp hclear
      refine Or.inl ⟨i, pollerStep_holds (packed i) hqueues hmade, hqueues, fun hreturned => ?_,
        fun k hki => effect.others hki⟩
      rw [pollerStep, hreturned] at hmade
      cases hmade
  | ticks ms hnext =>
      subst hnext
      exact Or.inr ⟨rfl, rfl⟩
  | monitors _ _ effect => exact Or.inr ⟨effect.pollers, rfl⟩
  | handles thread _ effect => exact Or.inr ⟨effect.pollers, rfl⟩
  | calls _ _ _ hnext | logs _ _ _ _ hnext | signals _ _ _ hnext =>
      subst hnext
      exact Or.inr ⟨rfl, rfl⟩

end Steps

end ClusteredPoller.Threads
