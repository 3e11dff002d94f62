import ClusteredPoller.Handover.Accounts

/-!
# What becomes of the inserts

An insert that is allocated waits with its poller, in the queue or with a
database thread, or it has met its end: there was no room for it, its query was
executed or refused by MySQL, or it had no query.
-/

namespace ClusteredPoller.Handover

open Library Poller Queue

inductive Fate (n m : Nat) where
  | unhandled (i : Fin n)
  | queue
  /-- With a database thread, which has not executed it yet. -/
  | unanswered (j : Fin m)
  | refused
  | executed
  | failed
  | omitted
  deriving DecidableEq, Fintype

section Fates

variable {n m : Nat}

/-- The insert is done with. -/
def Fate.isEnd : Fate n m → Bool
  | .unhandled _ | .queue | .unanswered _ => false
  | .refused | .executed | .failed | .omitted => true

/-- The end of an insert. -/
def Event.fate : Event n m → Option (Fate n m × Nat)
  | .freedByPoller _ insert => some (.refused, insert)
  | .executed _ insert true => some (.executed, insert)
  | .executed _ insert false => some (.failed, insert)
  | .skipped _ insert => some (.omitted, insert)
  | _ => none

/-- The inserts that have met this end. -/
def Memory.ended (memory : Memory n m) (fate : Fate n m) : List Nat :=
  ((memory.history.filterMap Event.fate).filter fun ended => ended.1 = fate).map Prod.snd

/-- The bag of inserts with each fate. -/
def State.fates (s : State n m) : Fate n m → Multiset Nat
  | .unhandled i => (s.pollers i).unhandled
  | .queue => s.memory.queue.stored
  | .unanswered j => (s.databases j).unanswered
  | fate => s.memory.ended fate

theorem fates_of_isEnd (s : State n m) {fate : Fate n m} (hend : fate.isEnd = true) :
    s.fates fate = s.memory.ended fate := by
  cases fate with
  | unhandled | queue | unanswered => cases hend
  | refused | executed | failed | omitted => rfl

/-- Every allocated insert has one fate. -/
def Fated (s : State n m) : Prop :=
  Holdings.total s.fates = Multiset.range s.memory.inserts.length

/-! ## The history -/

theorem ended_record_none {event : Event n m} (memory : Memory n m) (hevent : event.fate = none)
    (fate : Fate n m) : (memory.record event).ended fate = memory.ended fate := by
  rw [Memory.ended, Memory.ended, filterMap_record_none _ hevent]

theorem ended_record_self {event : Event n m} {fate : Fate n m} {insert : Nat}
    (memory : Memory n m) (hevent : event.fate = some (fate, insert)) :
    (memory.record event).ended fate = memory.ended fate ++ [insert] := by
  rw [Memory.ended, Memory.ended, filterMap_record, hevent]
  simp

theorem ended_record_ne {event : Event n m} {fate other : Fate n m} {insert : Nat}
    (memory : Memory n m) (hevent : event.fate = some (fate, insert)) (hne : other ≠ fate) :
    (memory.record event).ended other = memory.ended other := by
  rw [Memory.ended, Memory.ended, filterMap_record, hevent]
  simp [Ne.symm hne]

section Steps

variable {s next : State n m}

/-- Every insert has kept its fate. -/
structure Untouched (s next : State n m) : Prop where
  queue : next.memory.queue.stored = s.memory.queue.stored
  inserts : next.memory.inserts = s.memory.inserts
  ended : ∀ fate, next.memory.ended fate = s.memory.ended fate
  unhandled : ∀ i, (next.pollers i).unhandled = (s.pollers i).unhandled
  unanswered : ∀ j, (next.databases j).unanswered = (s.databases j).unanswered

theorem Fated.untouched (fated : Fated s) (untouched : Untouched s next) : Fated next := by
  have hfates : next.fates = s.fates := by
    funext fate
    cases fate with
    | unhandled i => exact congrArg _ (untouched.unhandled i)
    | queue => exact congrArg _ untouched.queue
    | unanswered j => exact congrArg _ (untouched.unanswered j)
    | refused | executed | failed | omitted => exact congrArg _ (untouched.ended _)
  rw [Fated, hfates, untouched.inserts]
  exact fated

/-- The fates that the step of a poller leaves alone. -/
theorem fates_of_poller {i : Fin n} {queries : Queries} {memory : Memory n m} {fate : Fate n m}
    (hfate : fate ≠ .unhandled i)
    (hqueue : fate = .queue → memory.queue.stored = s.memory.queue.stored)
    (hended : memory.ended fate = s.memory.ended fate) :
    State.fates { s with memory := memory, pollers := Function.update s.pollers i queries } fate =
      s.fates fate := by
  cases fate with
  | unhandled k =>
      have hki : k ≠ i := fun heq => hfate (heq ▸ rfl)
      exact congrArg (fun queries : Queries => (queries.unhandled : Multiset Nat))
        (Function.update_of_ne hki _ _)
  | queue => exact congrArg _ (hqueue rfl)
  | unanswered j => rfl
  | refused | executed | failed | omitted => exact congrArg _ hended

theorem fates_unhandled {i : Fin n} {queries : Queries} {memory : Memory n m} :
    State.fates { s with memory := memory, pollers := Function.update s.pollers i queries }
        (.unhandled i) = queries.unhandled :=
  congrArg (fun queries : Queries => (queries.unhandled : Multiset Nat)) (Function.update_self ..)

/-- The fates that the step of a database thread leaves alone. -/
theorem fates_of_database {j : Fin m} {draining : Draining} {memory : Memory n m}
    {fate : Fate n m} (hfate : fate ≠ .unanswered j)
    (hqueue : fate = .queue → memory.queue.stored = s.memory.queue.stored)
    (hended : memory.ended fate = s.memory.ended fate) :
    State.fates { s with memory := memory, databases := Function.update s.databases j draining }
        fate = s.fates fate := by
  cases fate with
  | unhandled i => rfl
  | queue => exact congrArg _ (hqueue rfl)
  | unanswered k =>
      have hkj : k ≠ j := fun heq => hfate (heq ▸ rfl)
      exact congrArg (fun draining : Draining => (draining.unanswered : Multiset Nat))
        (Function.update_of_ne hkj _ _)
  | refused | executed | failed | omitted => exact congrArg _ hended

theorem fates_unanswered {j : Fin m} {draining : Draining} {memory : Memory n m} :
    State.fates { s with memory := memory, databases := Function.update s.databases j draining }
        (.unanswered j) = draining.unanswered :=
  congrArg (fun draining : Draining => (draining.unanswered : Multiset Nat))
    (Function.update_self ..)

theorem Fated.begins {i : Fin n} {hostQueries : Inserts} {memory : Memory n m}
    {queries : Queries} (fated : Fated s) (hpc : (s.pollers i).pc = .idle)
    (hbegin : beginQueries s.memory hostQueries = .ok (memory, queries)) :
    Fated { s with memory := memory, pollers := Function.update s.pollers i queries } := by
  obtain ⟨inserts, rfl, hunhandled, -⟩ := beginQueries_ok hbegin
  have hidle : (s.pollers i).unhandled = [] := by rw [Queries.unhandled, hpc]
  have gains : Holdings.Gains s.fates
      (State.fates { s with
        memory := { s.memory with inserts := s.memory.inserts ++ inserts }
        pollers := Function.update s.pollers i queries })
      (.unhandled i) (List.range' s.memory.inserts.length inserts.length) := by
    constructor
    · rw [fates_unhandled, hunhandled, State.fates, hidle]
      rfl
    · exact fun fate hfate => fates_of_poller hfate (fun _ => rfl) rfl
  rw [Fated, gains.total_eq, fated, ← range_add]
  exact congrArg Multiset.range List.length_append.symm

theorem Fated.polls {i : Fin n} {garbage : UInt32} {memory : Memory n m} {queries : Queries}
    (fated : Fated s) (accounted : Accounted s)
    (effect : QueriesEffect i garbage s.memory memory (s.pollers i) queries) :
    Fated { s with memory := memory, pollers := Function.update s.pollers i queries } := by
  cases effect with
  | moves hmemory hunhandled | reads _ _ hmemory hunhandled =>
      subst hmemory
      exact fated.untouched ⟨rfl, rfl, fun _ => rfl, update_same Queries.unhandled hunhandled,
        fun _ => rfl⟩
  | pushes insert queue hpush hmemory hunhandled =>
      subst hmemory
      have hstored := (accounted.push_stores hpush).stored_eq
      have passes : Holdings.Passes s.fates
          (State.fates { s with
            memory := { s.memory with queue := queue }.record (.pushed i insert)
            pollers := Function.update s.pollers i queries })
          (.unhandled i) .queue insert := by
        constructor
        · nofun
        · rw [fates_unhandled, State.fates, hunhandled]
          rfl
        · exact (congrArg _ hstored).trans (coe_append_single _ _)
        · exact fun fate hsource htarget => fates_of_poller hsource
            (fun heq => absurd heq htarget) (ended_record_none _ rfl fate)
      rw [Fated, passes.total_eq]
      exact fated
  | refuses insert hmemory hunhandled =>
      subst hmemory
      exact fated.untouched ⟨rfl, rfl, ended_record_none _ rfl,
        update_same Queries.unhandled hunhandled, fun _ => rfl⟩
  | readsStale insert _ hmemory hunhandled =>
      subst hmemory
      exact fated.untouched ⟨rfl, rfl, ended_record_none _ rfl,
        update_same Queries.unhandled hunhandled, fun _ => rfl⟩
  | frees insert hmemory hunhandled =>
      subst hmemory
      have passes : Holdings.Passes s.fates
          (State.fates { s with
            memory := s.memory.record (.freedByPoller i insert)
            pollers := Function.update s.pollers i queries })
          (.unhandled i) .refused insert := by
        constructor
        · nofun
        · rw [fates_unhandled, State.fates, hunhandled]
          rfl
        · exact (congrArg _ (ended_record_self _ rfl)).trans (coe_append_single _ _)
        · exact fun fate hsource htarget => fates_of_poller hsource (fun _ => rfl)
            (ended_record_ne _ rfl htarget)
      rw [Fated, passes.total_eq]
      exact fated

theorem Fated.pops {j : Fin m} {insert : Nat} {queue : Clbuf Nat} {draining : Draining}
    (fated : Fated s) (accounted : Accounted s)
    (hpop : clbufPop s.memory.queue = (some insert, queue))
    (hunanswered : (s.databases j).unanswered = [] ∧ draining.unanswered = [insert]) :
    Fated { s with
      memory := { s.memory with queue := queue }.record (.popped j insert)
      databases := Function.update s.databases j draining } := by
  obtain ⟨rest, hitems, hstores⟩ := accounted.stores.pop_some hpop
  have hstored := hstores.stored_eq
  have passes : Holdings.Passes s.fates
      (State.fates { s with
        memory := { s.memory with queue := queue }.record (.popped j insert)
        databases := Function.update s.databases j draining })
      .queue (.unanswered j) insert := by
    constructor
    · nofun
    · change (s.memory.queue.stored : Multiset Nat) = insert ::ₘ (queue.stored : Multiset Nat)
      rw [hitems, hstored]
      rfl
    · rw [fates_unanswered, State.fates, hunanswered.1, hunanswered.2]
      rfl
    · exact fun fate hsource htarget => fates_of_database htarget
        (fun heq => absurd heq hsource) (ended_record_none _ rfl fate)
  rw [Fated, passes.total_eq]
  exact fated

/-- A query is executed, or there is none. -/
theorem Fated.answered {j : Fin m} {insert : Nat} {event : Event n m} {fate : Fate n m}
    {draining : Draining} (fated : Fated s) (hevent : event.fate = some (fate, insert))
    (hend : fate.isEnd = true)
    (hunanswered : (s.databases j).unanswered = [insert] ∧ draining.unanswered = []) :
    Fated { s with
      memory := s.memory.record event
      databases := Function.update s.databases j draining } := by
  have passes : Holdings.Passes s.fates
      (State.fates { s with
        memory := s.memory.record event
        databases := Function.update s.databases j draining })
      (.unanswered j) fate insert := by
    constructor
    · rintro rfl
      cases hend
    · rw [fates_unanswered, State.fates, hunanswered.1, hunanswered.2]
      rfl
    · rw [fates_of_isEnd _ hend, fates_of_isEnd _ hend, ended_record_self _ hevent]
      exact coe_append_single _ _
    · exact fun other hsource htarget => fates_of_database hsource (fun _ => rfl)
        (ended_record_ne _ hevent htarget)
  rw [Fated, passes.total_eq]
  exact fated

/-- A step of a database thread that moves no insert. -/
theorem Fated.answers_unmoved {j : Fin m} {draining : Draining} {memory : Memory n m}
    (fated : Fated s) (hqueue : memory.queue = s.memory.queue)
    (hinserts : memory.inserts = s.memory.inserts)
    (hended : ∀ fate, memory.ended fate = s.memory.ended fate)
    (hunanswered : draining.unanswered = (s.databases j).unanswered) :
    Fated { s with memory := memory, databases := Function.update s.databases j draining } :=
  fated.untouched ⟨congrArg Clbuf.stored hqueue, hinserts, hended, fun _ => rfl,
    update_same Draining.unanswered hunanswered⟩

theorem Fated.answers {j : Fin m} {succeeds : Bool} {memory : Memory n m} {draining : Draining}
    (fated : Fated s) (accounted : Accounted s)
    (effect : DrainingEffect j succeeds s.memory memory (s.databases j) draining) :
    Fated { s with memory := memory, databases := Function.update s.databases j draining } := by
  cases effect with
  | moves hmemory _ hunanswered =>
      rcases hmemory with rfl | rfl
      · exact fated.answers_unmoved rfl rfl (fun _ => rfl) hunanswered
      · exact fated.answers_unmoved rfl rfl (ended_record_none _ rfl) hunanswered
  | pops insert queue hpop hmemory _ hunanswered =>
      subst hmemory
      exact fated.pops accounted hpop hunanswered
  | popsNothing queue hpop hmemory _ hunanswered =>
      subst hmemory
      obtain ⟨-, rfl⟩ := accounted.stores.pop_none hpop
      exact fated.answers_unmoved rfl rfl (fun _ => rfl) hunanswered
  | answers insert event hevent hmemory _ hunanswered =>
      subst hmemory
      rcases hevent with rfl | ⟨succeeded, rfl, -⟩
      · exact fated.answered rfl rfl hunanswered
      · cases succeeded with
        | true => exact fated.answered rfl rfl hunanswered
        | false => exact fated.answered rfl rfl hunanswered
  | fails fault hmemory hsame =>
      subst hmemory hsame
      exact fated.answers_unmoved rfl rfl (fun _ => rfl) rfl
  | frees insert hmemory hpc _ hunanswered =>
      subst hmemory
      refine fated.answers_unmoved rfl rfl (ended_record_none _ rfl) ?_
      rw [hunanswered, Draining.unanswered, hpc]

theorem Fated.step {config : Rtgconf} {label : Label n m} (fated : Fated s)
    (accounted : Accounted s) (hstep : step config label s = some next) : Fated next := by
  cases step_effect hstep with
  | begins i hostQueries memory queries hpc hbegin hnext =>
      subst hnext
      exact fated.begins hpc hbegin
  | beginFails i hostQueries fault hnext =>
      subst hnext
      exact fated.untouched ⟨rfl, rfl, fun _ => rfl, fun _ => rfl, fun _ => rfl⟩
  | polls i garbage memory queries effect hnext =>
      subst hnext
      exact fated.polls accounted effect
  | drains j useDb hpc hnext =>
      subst hnext
      refine fated.answers_unmoved rfl rfl (fun _ => rfl) ?_
      rw [Draining.unanswered, Draining.unanswered, hpc]
      rfl
  | answers j succeeds memory draining effect hnext =>
      subst hnext
      exact fated.answers accounted effect

end Steps

theorem fated_start (size : UInt32) (hsize : 0 < size.toNat) :
    Fated (State.start size hsize : State n m) := by
  have hstores : (clbufCreate Nat size hsize).Stores [] := Clbuf.stores_create size hsize
  refine Finset.sum_eq_zero fun fate _ => ?_
  cases fate with
  | queue => exact congrArg _ hstores.stored_eq
  | unhandled i => rfl
  | unanswered j => rfl
  | refused | executed | failed | omitted => rfl

end Fates

end ClusteredPoller.Handover
