import ClusteredPoller.Handover.System
import ClusteredPoller.Library.Outcome

/-!
# What a step does with an insert

The steps of the two calls, by what they do with the insert in hand.
-/

namespace ClusteredPoller.Handover

open Database Library.Outcome Poller Queue Threads

/-! ## What a program counter says -/

/-- The inserts of the poller's list that are not yet handled. -/
def Queries.unhandled (queries : Queries) : List Nat :=
  match queries.pc with
  | .idle | .countUsed | .update _ => []
  | .loopTest rest | .readValues _ rest => rest
  | .countFree insert rest | .push insert rest | .freeInsert insert rest => insert :: rest

/-- The insert that is about to be freed by its poller. -/
def Queries.refusing (queries : Queries) : List Nat :=
  match queries.pc with
  | .freeInsert insert _ => [insert]
  | _ => []

/-- The insert whose `nvalues` is about to be read. -/
def Queries.reading (queries : Queries) : List Nat :=
  match queries.pc with
  | .readValues insert _ => [insert]
  | _ => []

/-- The insert that a database thread has popped and not yet freed. -/
def Draining.held (draining : Draining) : List Nat :=
  match draining.pc with
  | .build insert | .execute insert _ | .freeInsert insert => [insert]
  | _ => []

/-- The insert whose query is not yet executed. -/
def Draining.unanswered (draining : Draining) : List Nat :=
  match draining.pc with
  | .build insert | .execute insert _ => [insert]
  | _ => []

/-! ## Pollers -/

section Pollers

variable {n m : Nat} {i : Fin n} {garbage : UInt32} {memory memory' : Memory n m}
  {queries queries' : Queries}

inductive QueriesEffect (i : Fin n) (garbage : UInt32) (memory memory' : Memory n m)
    (queries queries' : Queries) : Prop where
  | moves (hmemory : memory' = memory) (hunhandled : queries'.unhandled = queries.unhandled)
      (hrefusing : queries'.refusing = queries.refusing)
      (hreading : queries'.reading = queries.reading)
      (hqueued : queries'.queued = queries.queued ∧
        queries'.queuedValues = queries.queuedValues ∨ queries' = Queries.idle)
  | pushes (insert : Nat) (queue : Clbuf Nat)
      (hpush : clbufPush memory.queue (some insert) = (some insert, queue))
      (hmemory : memory' = { memory with queue := queue }.record (.pushed i insert))
      (hunhandled : queries.unhandled = insert :: queries'.unhandled)
      (hrefusing : queries'.refusing = queries.refusing)
      (hreading : queries.reading = [] ∧ queries'.reading = [insert])
      (hqueued : queries'.queued = queries.queued ++ [insert] ∧
        queries'.queuedValues = queries.queuedValues)
      (hpc : ∃ rest, queries.pc = .push insert rest)
  | refuses (insert : Nat) (hmemory : memory' = memory.record (.refused i insert))
      (hunhandled : queries'.unhandled = queries.unhandled)
      (hrefusing : queries.refusing = [] ∧ queries'.refusing = [insert])
      (hreading : queries'.reading = queries.reading)
      (hqueued : queries'.queued = queries.queued ∧
        queries'.queuedValues = queries.queuedValues)
  | reads (insert : Nat) (hinsert : insert ∉ memory.freed) (hmemory : memory' = memory)
      (hunhandled : queries'.unhandled = queries.unhandled)
      (hrefusing : queries'.refusing = queries.refusing)
      (hreading : queries.reading = [insert] ∧ queries'.reading = [])
      (hqueued : queries'.queued = queries.queued ∧
        queries'.queuedValues = queries.queuedValues + memory.nvalues insert)
  | readsStale (insert : Nat) (hinsert : insert ∈ memory.freed)
      (hmemory : memory' = memory.record (.staleRead i insert))
      (hunhandled : queries'.unhandled = queries.unhandled)
      (hrefusing : queries'.refusing = queries.refusing)
      (hreading : queries.reading = [insert])
      (hqueued : queries'.queued = queries.queued ∧
        queries'.queuedValues = queries.queuedValues + garbage)
  | frees (insert : Nat) (hmemory : memory' = memory.record (.freedByPoller i insert))
      (hunhandled : queries.unhandled = insert :: queries'.unhandled)
      (hrefusing : queries.refusing = [insert] ∧ queries'.refusing = [])
      (hreading : queries'.reading = queries.reading)
      (hqueued : queries'.queued = queries.queued ∧
        queries'.queuedValues = queries.queuedValues)

/-- A push is accepted or changes nothing. -/
theorem clbufPush_cases {α : Type} (cb : Clbuf α) (item : α) :
    (clbufPush cb (some item)).1 = some item ∨ clbufPush cb (some item) = (none, cb) := by
  rw [clbufPush]
  split
  · exact Or.inr rfl
  · exact Or.inl rfl

theorem queriesStep_effect
    (hstep : queriesStep i garbage memory queries = some (memory', queries')) :
    QueriesEffect i garbage memory memory' queries queries' := by
  obtain ⟨pc, nQueries, processedInserts, queuedQueries, queuedValues, queued⟩ := queries
  cases pc with
  | idle => cases hstep
  | loopTest rest =>
      cases rest with
      | nil =>
          cases hstep
          exact .moves rfl rfl rfl rfl (Or.inl ⟨rfl, rfl⟩)
      | cons insert rest =>
          cases hstep
          exact .moves rfl rfl rfl rfl (Or.inl ⟨rfl, rfl⟩)
  | countFree insert rest =>
      unfold queriesStep at hstep
      dsimp only at hstep
      split at hstep
      · cases hstep
        exact .moves rfl rfl rfl rfl (Or.inl ⟨rfl, rfl⟩)
      · cases hstep
        exact .refuses insert rfl rfl ⟨rfl, rfl⟩ rfl ⟨rfl, rfl⟩
  | push insert rest =>
      unfold queriesStep at hstep
      dsimp only at hstep
      rcases clbufPush_cases memory.queue insert with haccepted | hrefused
      · have hpush : clbufPush memory.queue (some insert) =
            (some insert, (clbufPush memory.queue (some insert)).2) :=
          Prod.ext haccepted rfl
        rw [hpush] at hstep
        cases hstep
        exact .pushes insert _ hpush rfl rfl rfl ⟨rfl, rfl⟩ ⟨rfl, rfl⟩ ⟨rest, rfl⟩
      · rw [hrefused] at hstep
        cases hstep
        exact .refuses insert rfl rfl ⟨rfl, rfl⟩ rfl ⟨rfl, rfl⟩
  | readValues insert rest =>
      unfold queriesStep at hstep
      dsimp only at hstep
      split at hstep
      · rename_i hinsert
        cases hstep
        exact .readsStale insert hinsert rfl rfl rfl rfl ⟨rfl, rfl⟩
      · rename_i hinsert
        cases hstep
        exact .reads insert hinsert rfl rfl rfl ⟨rfl, rfl⟩ ⟨rfl, rfl⟩
  | freeInsert insert rest =>
      cases hstep
      exact .frees insert rfl rfl ⟨rfl, rfl⟩ rfl ⟨rfl, rfl⟩
  | countUsed =>
      cases hstep
      exact .moves rfl rfl rfl rfl (Or.inl ⟨rfl, rfl⟩)
  | update depth =>
      cases hstep
      exact .moves rfl rfl rfl rfl (Or.inr rfl)

theorem beginQueries_ok {hostQueries : Inserts}
    (hbegin : beginQueries memory hostQueries = .ok (memory', queries')) :
    ∃ inserts : List Clinsert, memory' = { memory with inserts := memory.inserts ++ inserts } ∧
      queries'.unhandled = List.range' memory.inserts.length inserts.length ∧
      queries'.refusing = [] ∧ queries'.reading = [] ∧ queries'.queued = [] ∧
      queries'.queuedValues = 0 := by
  obtain ⟨nQueries, -, hrest⟩ := bind_eq_ok.mp hbegin
  cases hrest
  exact ⟨_, rfl, rfl, rfl, rfl, rfl, rfl⟩

end Pollers

/-! ## Database threads -/

section Databases

variable {n m : Nat} {config : Rtgconf} {j : Fin m} {succeeds : Bool}
  {memory memory' : Memory n m} {draining draining' : Draining}

inductive DrainingEffect (j : Fin m) (succeeds : Bool) (memory memory' : Memory n m)
    (draining draining' : Draining) : Prop where
  | moves (hmemory : memory' = memory ∨ memory' = memory.record (.committed j))
      (hheld : draining'.held = draining.held)
      (hunanswered : draining'.unanswered = draining.unanswered)
  | pops (insert : Nat) (queue : Clbuf Nat)
      (hpop : clbufPop memory.queue = (some insert, queue))
      (hmemory : memory' = { memory with queue := queue }.record (.popped j insert))
      (hheld : draining.held = [] ∧ draining'.held = [insert])
      (hunanswered : draining.unanswered = [] ∧ draining'.unanswered = [insert])
  | popsNothing (queue : Clbuf Nat) (hpop : clbufPop memory.queue = (none, queue))
      (hmemory : memory' = { memory with queue := queue })
      (hheld : draining'.held = draining.held)
      (hunanswered : draining'.unanswered = draining.unanswered)
  | answers (insert : Nat) (event : Event n m)
      (hevent : event = .skipped j insert ∨
        ∃ succeeded, event = .executed j insert succeeded ∧ (succeeds = true → succeeded = true))
      (hmemory : memory' = memory.record event) (hheld : draining'.held = draining.held)
      (hunanswered : draining.unanswered = [insert] ∧ draining'.unanswered = [])
  | fails (fault : Fault) (hmemory : memory' = memory.fail fault) (hsame : draining' = draining)
  | frees (insert : Nat) (hmemory : memory' = memory.record (.freedByDatabase j insert))
      (hpc : draining.pc = .freeInsert insert)
      (hheld : draining'.held = []) (hunanswered : draining'.unanswered = [])

theorem afterInsert_pc (draining : Draining) :
    draining.afterInsert.pc = .commitTest ∨ draining.afterInsert.pc = .countUsed := by
  unfold Draining.afterInsert
  split
  · exact Or.inl rfl
  · exact Or.inr rfl

theorem afterLoop_pc (draining : Draining) :
    draining.afterLoop.pc = .commitEnd ∨ draining.afterLoop.pc = .idle := by
  unfold Draining.afterLoop
  split
  · exact Or.inl rfl
  · exact Or.inr rfl

theorem afterInsert_held (draining : Draining) : draining.afterInsert.held = [] := by
  unfold Draining.held
  rcases afterInsert_pc draining with hpc | hpc <;> rw [hpc]

theorem afterInsert_unanswered (draining : Draining) : draining.afterInsert.unanswered = [] := by
  unfold Draining.unanswered
  rcases afterInsert_pc draining with hpc | hpc <;> rw [hpc]

theorem afterLoop_held (draining : Draining) : draining.afterLoop.held = [] := by
  unfold Draining.held
  rcases afterLoop_pc draining with hpc | hpc <;> rw [hpc]

theorem afterLoop_unanswered (draining : Draining) : draining.afterLoop.unanswered = [] := by
  unfold Draining.unanswered
  rcases afterLoop_pc draining with hpc | hpc <;> rw [hpc]

theorem drainStep_effect
    (hstep : drainStep config j succeeds memory draining = some (memory', draining')) :
    DrainingEffect j succeeds memory memory' draining draining' := by
  obtain ⟨pc, useDb, queryCounter⟩ := draining
  cases pc with
  | idle => cases hstep
  | countUsed =>
      cases hstep
      refine .moves (Or.inl rfl) ?_ ?_
      · split
        · rfl
        · exact afterLoop_held _
      · split
        · rfl
        · exact afterLoop_unanswered _
  | pop =>
      unfold drainStep at hstep
      dsimp only at hstep
      split at hstep
      · rename_i insert queue hpop
        cases hstep
        exact .pops insert queue hpop rfl ⟨rfl, rfl⟩ ⟨rfl, rfl⟩
      · rename_i queue hpop
        cases hstep
        exact .popsNothing queue hpop rfl (afterInsert_held _) (afterInsert_unanswered _)
  | build insert =>
      obtain ⟨values, -, hbuild⟩ := Option.map_eq_some_iff.mp hstep
      split at hbuild
      · cases hbuild
        exact .moves (Or.inl rfl) rfl rfl
      · cases hbuild
        exact .answers insert _ (Or.inl rfl) rfl rfl ⟨rfl, rfl⟩
      · cases hbuild
        exact .fails _ rfl rfl
  | execute insert query =>
      cases hstep
      refine .answers insert _ (Or.inr ⟨_, rfl, ?_⟩) rfl rfl ⟨rfl, rfl⟩
      rintro rfl
      exact Bool.or_true _
  | freeInsert insert =>
      cases hstep
      exact .frees insert rfl rfl (afterInsert_held _) (afterInsert_unanswered _)
  | commitTest =>
      cases hstep
      refine .moves ?_ rfl rfl
      split
      · exact Or.inr rfl
      · exact Or.inl rfl
  | commitEnd =>
      cases hstep
      refine .moves ?_ rfl rfl
      split
      · exact Or.inr rfl
      · exact Or.inl rfl

end Databases

/-! ## The system -/

section System

variable {n m : Nat} {config : Rtgconf} {s next : State n m}

inductive StepEffect (s next : State n m) : Label n m → Prop where
  | begins (i : Fin n) (hostQueries : Inserts) (memory : Memory n m) (queries : Queries)
      (hpc : (s.pollers i).pc = .idle)
      (hbegin : beginQueries s.memory hostQueries = .ok (memory, queries))
      (hnext : next =
        { s with memory := memory, pollers := Function.update s.pollers i queries }) :
      StepEffect s next (.begin i hostQueries)
  | beginFails (i : Fin n) (hostQueries : Inserts) (fault : Fault)
      (hnext : next = { s with memory := s.memory.fail fault }) (hpc : (s.pollers i).pc = .idle) :
      StepEffect s next (.begin i hostQueries)
  | polls (i : Fin n) (garbage : UInt32) (memory : Memory n m) (queries : Queries)
      (effect : QueriesEffect i garbage s.memory memory (s.pollers i) queries)
      (hnext : next =
        { s with memory := memory, pollers := Function.update s.pollers i queries }) :
      StepEffect s next (.poller i garbage)
  | drains (j : Fin m) (useDb : Bool) (hpc : (s.databases j).pc = .idle)
      (hnext : next =
        { s with databases := Function.update s.databases j (Draining.begin useDb) }) :
      StepEffect s next (.drain j useDb)
  | answers (j : Fin m) (succeeds : Bool) (memory : Memory n m) (draining : Draining)
      (effect : DrainingEffect j succeeds s.memory memory (s.databases j) draining)
      (hnext : next =
        { s with memory := memory, databases := Function.update s.databases j draining }) :
      StepEffect s next (.database j succeeds)

theorem step_effect {label : Label n m} (hstep : step config label s = some next) :
    StepEffect s next label := by
  unfold step at hstep
  split at hstep
  · cases hstep
  · cases label with
    | begin i hostQueries =>
        dsimp only at hstep
        split at hstep
        · rename_i hpc
          cases hbegin : beginQueries s.memory hostQueries with
          | ok begun =>
              rw [hbegin] at hstep
              cases hstep
              exact .begins i hostQueries begun.1 begun.2 hpc hbegin rfl
          | error fault =>
              rw [hbegin] at hstep
              cases hstep
              exact .beginFails i hostQueries fault rfl hpc
        · cases hstep
    | poller i garbage =>
        obtain ⟨stepped, hqueries, rfl⟩ := Option.map_eq_some_iff.mp hstep
        exact .polls i garbage stepped.1 stepped.2 (queriesStep_effect hqueries) rfl
    | drain j useDb =>
        dsimp only at hstep
        split at hstep
        · rename_i hpc
          cases hstep
          exact .drains j useDb hpc rfl
        · cases hstep
    | database j succeeds =>
        obtain ⟨stepped, hdrain, rfl⟩ := Option.map_eq_some_iff.mp hstep
        exact .answers j succeeds stepped.1 stepped.2 (drainStep_effect hdrain) rfl

end System

end ClusteredPoller.Handover
