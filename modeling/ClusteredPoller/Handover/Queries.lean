import ClusteredPoller.Handover.Fates
import ClusteredPoller.Poller.Contents

/-!
# Which query is whose

A query that is executed is the one built from its insert, and an insert is left
out only where there is none.
-/

namespace ClusteredPoller.Handover

open Database Library.Outcome Poller

section Queries

variable {n m : Nat}

/-- The insert whose query was executed, and the result. -/
def Event.execution : Event n m → Option (Nat × Bool)
  | .executed _ insert succeeded => some (insert, succeeded)
  | _ => none

/-- The executed queries, in order. -/
def Memory.executions (memory : Memory n m) : List (Nat × Bool) :=
  memory.history.filterMap Event.execution

/-- `build_insert_query` for an insert by its number. -/
def Memory.queryOf (config : Rtgconf) (memory : Memory n m) (insert : Nat) :
    Option (Except Fault (Option CString)) :=
  (memory.inserts[insert]?).map fun values => buildInsertQuery values config

/-- The samples of an insert by its number. -/
def Memory.samplesAt (memory : Memory n m) (insert : Nat) : Multiset Push :=
  match memory.inserts[insert]? with
  | some values => values.samples
  | none => 0

/-- What a step of `process_database_queue` executes. -/
def Draining.executes (succeeds : Bool) (draining : Draining) : List (Nat × Bool) :=
  match draining.pc with
  | .execute insert _ => [(insert, !draining.useDb || succeeds)]
  | _ => []

/-- What a thread is about to execute is the query of its insert. -/
structure Built (config : Rtgconf) (s : State n m) : Prop where
  executing : ∀ j insert query, (s.databases j).pc = .execute insert query →
    s.memory.queryOf config insert = some (.ok (some query))
  omitted : ∀ insert ∈ s.memory.ended .omitted,
    s.memory.queryOf config insert = some (.ok none)

/-! ## The samples of all inserts -/

theorem bind_samplesAt (memory : Memory n m) :
    (Multiset.range memory.inserts.length).bind memory.samplesAt = samplesIn memory.inserts := by
  have hsamples : (List.range memory.inserts.length).map memory.samplesAt =
      memory.inserts.map Clinsert.samples := by
    refine List.ext_getElem (by simp) fun insert hleft hright => ?_
    have hinsert : insert < memory.inserts.length := by simpa using hright
    simp [Memory.samplesAt, hinsert]
  change (((List.range memory.inserts.length).map memory.samplesAt : List _) :
    Multiset (Multiset Push)).join = _
  rw [hsamples]
  exact Multiset.sum_coe _

/-- `Multiset.bind` respects sums. -/
def bindHom {α β : Type} (bags : α → Multiset β) : Multiset α →+ Multiset β where
  toFun bag := bag.bind bags
  map_zero' := Multiset.zero_bind bags
  map_add' first second := Multiset.add_bind first second bags

/-- The samples of all inserts by their fates. -/
theorem Fated.samples {s : State n m} (fated : Fated s) :
    samplesIn s.memory.inserts = ∑ fate, (s.fates fate).bind s.memory.samplesAt := by
  rw [← bind_samplesAt, ← fated]
  exact map_sum (bindHom s.memory.samplesAt) _ _

section Steps

variable {config : Rtgconf} {s next : State n m} {memory memory' : Memory n m}

/-- The inserts that were there are as they were. -/
theorem queryOf_append {inserts : List Clinsert} {insert : Nat}
    {query : Except Fault (Option CString)} (hinserts : memory'.inserts = memory.inserts ++ inserts)
    (hquery : memory.queryOf config insert = some query) :
    memory'.queryOf config insert = some query := by
  obtain ⟨values, hvalues, hbuild⟩ := Option.map_eq_some_iff.mp hquery
  have hlength := (List.getElem?_eq_some_iff.mp hvalues).1
  rw [Memory.queryOf, hinserts, List.getElem?_append_left hlength, hvalues]
  exact congrArg some hbuild

theorem afterInsert_executes (draining : Draining) {insert : Nat} {query : CString} :
    draining.afterInsert.pc ≠ .execute insert query := by
  rcases afterInsert_pc draining with hpc | hpc <;> rw [hpc] <;> nofun

theorem afterLoop_executes (draining : Draining) {insert : Nat} {query : CString} :
    draining.afterLoop.pc ≠ .execute insert query := by
  rcases afterLoop_pc draining with hpc | hpc <;> rw [hpc] <;> nofun

theorem drainStep_inserts {j : Fin m} {succeeds : Bool} {draining draining' : Draining}
    (hstep : drainStep config j succeeds memory draining = some (memory', draining')) :
    memory'.inserts = memory.inserts := by
  cases drainStep_effect hstep with
  | moves hmemory =>
      rcases hmemory with rfl | rfl
      · rfl
      · rfl
  | pops _ _ _ hmemory | popsNothing _ _ hmemory | answers _ _ _ hmemory | fails _ hmemory
  | frees _ hmemory =>
      subst hmemory
      rfl

theorem drainStep_executions {j : Fin m} {succeeds : Bool} {draining draining' : Draining}
    (hstep : drainStep config j succeeds memory draining = some (memory', draining')) :
    memory'.executions = memory.executions ++ draining.executes succeeds := by
  have silent : ∀ {event : Event n m}, event.execution = none →
      (memory.record event).executions = memory.executions ++ [] := by
    intro event hevent
    rw [Memory.executions, Memory.executions, filterMap_record_none _ hevent, List.append_nil]
  have same : memory.executions = memory.executions ++ [] := (List.append_nil _).symm
  obtain ⟨pc, useDb, queryCounter⟩ := draining
  cases pc with
  | idle => cases hstep
  | countUsed =>
      cases hstep
      exact same
  | pop =>
      unfold drainStep at hstep
      dsimp only at hstep
      split at hstep
      · cases hstep
        exact silent rfl
      · cases hstep
        exact same
  | build insert =>
      obtain ⟨values, -, hbuild⟩ := Option.map_eq_some_iff.mp hstep
      split at hbuild
      · cases hbuild
        exact same
      · cases hbuild
        exact silent rfl
      · cases hbuild
        exact same
  | execute insert query =>
      cases hstep
      exact filterMap_record memory _ Event.execution
  | freeInsert insert =>
      cases hstep
      exact silent rfl
  | commitTest | commitEnd =>
      cases hstep
      split
      · exact silent rfl
      · exact same

/-- A thread is about to execute only what it has built. -/
theorem drainStep_builds {j : Fin m} {succeeds : Bool} {draining draining' : Draining}
    (hstep : drainStep config j succeeds memory draining = some (memory', draining'))
    {insert : Nat} {query : CString} (hpc : draining'.pc = .execute insert query) :
    memory.queryOf config insert = some (.ok (some query)) := by
  obtain ⟨pc, useDb, queryCounter⟩ := draining
  cases pc with
  | build other =>
      obtain ⟨values, hvalues, hbuild⟩ := Option.map_eq_some_iff.mp hstep
      split at hbuild
      · rename_i built hquery
        cases hbuild
        cases hpc
        rw [Memory.queryOf, hvalues]
        exact congrArg some hquery
      · cases hbuild
        cases hpc
      · cases hbuild
        cases hpc
  | idle => cases hstep
  | countUsed =>
      cases hstep
      split at hpc
      · cases hpc
      · exact absurd hpc (afterLoop_executes _)
  | pop =>
      unfold drainStep at hstep
      dsimp only at hstep
      split at hstep
      · cases hstep
        cases hpc
      · cases hstep
        exact absurd hpc (afterInsert_executes _)
  | execute other =>
      cases hstep
      cases hpc
  | freeInsert other =>
      cases hstep
      exact absurd hpc (afterInsert_executes _)
  | commitTest | commitEnd =>
      cases hstep
      cases hpc

theorem ended_executed (memory : Memory n m) (j : Fin m) (insert : Nat) (succeeded : Bool) :
    (memory.record (.executed j insert succeeded)).ended .omitted = memory.ended .omitted := by
  cases succeeded with
  | true => exact ended_record_ne memory (show _ = some (.executed, insert) from rfl) nofun
  | false => exact ended_record_ne memory (show _ = some (.failed, insert) from rfl) nofun

/-- An insert is omitted only where it has no query. -/
theorem drainStep_omits {j : Fin m} {succeeds : Bool} {draining draining' : Draining}
    (hstep : drainStep config j succeeds memory draining = some (memory', draining'))
    {insert : Nat} (homitted : insert ∈ memory'.ended .omitted) :
    insert ∈ memory.ended .omitted ∨ memory.queryOf config insert = some (.ok none) := by
  obtain ⟨pc, useDb, queryCounter⟩ := draining
  cases pc with
  | idle => cases hstep
  | countUsed =>
      cases hstep
      exact Or.inl homitted
  | pop =>
      unfold drainStep at hstep
      dsimp only at hstep
      split at hstep
      · cases hstep
        rw [ended_record_none _ rfl] at homitted
        exact Or.inl homitted
      · cases hstep
        exact Or.inl homitted
  | build other =>
      obtain ⟨values, hvalues, hbuild⟩ := Option.map_eq_some_iff.mp hstep
      split at hbuild
      · cases hbuild
        exact Or.inl homitted
      · rename_i hquery
        cases hbuild
        rw [ended_record_self _ rfl] at homitted
        rcases List.mem_append.mp homitted with hbefore | hnew
        · exact Or.inl hbefore
        · right
          rw [List.mem_singleton.mp hnew, Memory.queryOf, hvalues]
          exact congrArg some hquery
      · cases hbuild
        exact Or.inl homitted
  | execute other query =>
      cases hstep
      rw [ended_executed] at homitted
      exact Or.inl homitted
  | freeInsert other =>
      cases hstep
      rw [ended_record_none _ rfl] at homitted
      exact Or.inl homitted
  | commitTest | commitEnd =>
      cases hstep
      split at homitted
      · rw [ended_record_none _ rfl] at homitted
        exact Or.inl homitted
      · exact Or.inl homitted

theorem queriesStep_queries {i : Fin n} {garbage : UInt32} {queries queries' : Queries}
    (hstep : queriesStep i garbage memory queries = some (memory', queries')) :
    memory'.inserts = memory.inserts ∧ memory'.executions = memory.executions ∧
      memory'.ended .omitted = memory.ended .omitted := by
  cases queriesStep_effect hstep with
  | moves hmemory | reads _ _ hmemory =>
      subst hmemory
      exact ⟨rfl, rfl, rfl⟩
  | pushes _ _ _ hmemory | refuses _ hmemory | readsStale _ _ hmemory =>
      subst hmemory
      exact ⟨rfl, filterMap_record_none _ rfl, ended_record_none _ rfl _⟩
  | frees insert hmemory =>
      subst hmemory
      exact ⟨rfl, filterMap_record_none _ rfl, ended_record_ne _ rfl nofun⟩

/-- What a step of a database thread executes. -/
def executes : Label n m → State n m → List (Nat × Bool)
  | .database j succeeds, s => (s.databases j).executes succeeds
  | _, _ => []

/-- What a step does with the inserts and their queries. -/
structure Grows (config : Rtgconf) (label : Label n m) (s next : State n m) : Prop where
  inserts : ∃ inserts, next.memory.inserts = s.memory.inserts ++ inserts
  executions : next.memory.executions = s.memory.executions ++ executes label s
  executing : ∀ j insert query, (next.databases j).pc = .execute insert query →
    (s.databases j).pc = .execute insert query ∨
      s.memory.queryOf config insert = some (.ok (some query))
  omitted : ∀ insert ∈ next.memory.ended .omitted,
    insert ∈ s.memory.ended .omitted ∨ s.memory.queryOf config insert = some (.ok none)

/-- A step that leaves the database threads alone. -/
theorem grows_of_memory {label : Label n m} {inserts : List Clinsert}
    (hinserts : next.memory.inserts = s.memory.inserts ++ inserts)
    (hexecutions : next.memory.executions = s.memory.executions)
    (homitted : next.memory.ended .omitted = s.memory.ended .omitted)
    (hdatabases : ∀ j insert query, (next.databases j).pc = .execute insert query →
      (s.databases j).pc = .execute insert query) (hlabel : executes label s = []) :
    Grows config label s next := by
  refine ⟨⟨inserts, hinserts⟩, ?_, fun j insert query hpc => Or.inl (hdatabases j insert query hpc),
    fun insert hinsert => Or.inl (homitted ▸ hinsert)⟩
  rw [hexecutions, hlabel, List.append_nil]

theorem step_grows {label : Label n m} (hstep : step config label s = some next) :
    Grows config label s next := by
  unfold step at hstep
  split at hstep
  · cases hstep
  · cases label with
    | begin i hostQueries =>
        dsimp only at hstep
        split at hstep
        · cases hbegin : beginQueries s.memory hostQueries with
          | ok begun =>
              rw [hbegin] at hstep
              cases hstep
              obtain ⟨inserts, hmemory, -⟩ := beginQueries_ok hbegin
              rw [hmemory]
              exact grows_of_memory rfl rfl rfl (fun _ _ _ => id) rfl
          | error fault =>
              rw [hbegin] at hstep
              cases hstep
              exact grows_of_memory (List.append_nil _).symm rfl rfl (fun _ _ _ => id) rfl
        · cases hstep
    | poller i garbage =>
        obtain ⟨stepped, hqueries, rfl⟩ := Option.map_eq_some_iff.mp hstep
        obtain ⟨hinserts, hexecutions, homitted⟩ := queriesStep_queries hqueries
        exact grows_of_memory (hinserts.trans (List.append_nil _).symm) hexecutions homitted
          (fun _ _ _ => id) rfl
    | drain j useDb =>
        dsimp only at hstep
        split at hstep
        · cases hstep
          refine grows_of_memory (List.append_nil _).symm rfl rfl (fun k insert query hpc => ?_) rfl
          by_cases hkj : k = j
          · subst hkj
            dsimp only at hpc
            rw [Function.update_self] at hpc
            cases hpc
          · dsimp only at hpc
            rwa [Function.update_of_ne hkj] at hpc
        · cases hstep
    | database j succeeds =>
        obtain ⟨stepped, hdrain, rfl⟩ := Option.map_eq_some_iff.mp hstep
        refine ⟨⟨[], (drainStep_inserts hdrain).trans (List.append_nil _).symm⟩,
          drainStep_executions hdrain, fun k insert query hpc => ?_,
          fun insert hinsert => drainStep_omits hdrain hinsert⟩
        by_cases hkj : k = j
        · subst hkj
          dsimp only at hpc
          rw [Function.update_self] at hpc
          exact Or.inr (drainStep_builds hdrain hpc)
        · dsimp only at hpc
          rw [Function.update_of_ne hkj] at hpc
          exact Or.inl hpc

theorem Built.step {label : Label n m} (built : Built config s)
    (hstep : step config label s = some next) : Built config next := by
  have grows := step_grows hstep
  obtain ⟨inserts, hinserts⟩ := grows.inserts
  constructor
  · intro j insert query hpc
    refine queryOf_append hinserts ?_
    exact (grows.executing j insert query hpc).elim (built.executing j insert query) id
  · intro insert hinsert
    exact queryOf_append hinserts ((grows.omitted insert hinsert).elim (built.omitted insert) id)

end Steps

theorem built_start (config : Rtgconf) (size : UInt32) (hsize : 0 < size.toNat) :
    Built config (State.start size hsize : State n m) := ⟨nofun, nofun⟩

end Queries

end ClusteredPoller.Handover
