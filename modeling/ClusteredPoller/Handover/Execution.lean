import ClusteredPoller.Handover.Reads

/-!
# What is popped is executed

A database thread frees a popped insert only behind its query.
-/

namespace ClusteredPoller.Handover

section Execution

variable {n m : Nat}

/-- The insert has been executed, or it had no query. -/
def Answered (s : State n m) (insert : Nat) : Prop :=
  ∃ j, .executed j insert true ∈ s.memory.history ∨ .skipped j insert ∈ s.memory.history

/-- Every popped insert has been executed, or some database thread is about to. -/
def Executed (s : State n m) : Prop :=
  ∀ insert ∈ s.memory.popped, (∃ j, insert ∈ (s.databases j).unanswered) ∨ Answered s insert

/-- Every call of MySQL succeeds. -/
def Label.succeeds : Label n m → Bool
  | .database _ succeeds => succeeds
  | _ => true

section Steps

variable {config : Rtgconf} {s next : State n m}

theorem Answered.grows {insert : Nat} (answered : Answered s insert)
    (hhistory : s.memory.history <+: next.memory.history) : Answered next insert := by
  obtain ⟨j, hevent⟩ := answered
  exact ⟨j, hevent.imp (fun hmem => hhistory.subset hmem) fun hmem => hhistory.subset hmem⟩

/-- A step that neither pops nor answers. -/
theorem Executed.unmoved (executed : Executed s)
    (hhistory : s.memory.history <+: next.memory.history)
    (hpopped : next.memory.popped = s.memory.popped)
    (hunanswered : ∀ j, (next.databases j).unanswered = (s.databases j).unanswered) :
    Executed next := by
  intro insert hinsert
  rw [hpopped] at hinsert
  rcases executed insert hinsert with ⟨j, hj⟩ | answered
  · exact Or.inl ⟨j, (hunanswered j).symm ▸ hj⟩
  · exact Or.inr (answered.grows hhistory)

theorem popped_of_polls {i : Fin n} {garbage : UInt32} {memory memory' : Memory n m}
    {queries queries' : Queries}
    (effect : QueriesEffect i garbage memory memory' queries queries') :
    memory'.popped = memory.popped := by
  cases effect with
  | moves hmemory => exact congrArg _ hmemory
  | pushes _ queue _ hmemory =>
      subst hmemory
      exact filterMap_record_none _ rfl
  | refuses _ hmemory =>
      subst hmemory
      exact filterMap_record_none _ rfl
  | reads _ _ hmemory => exact congrArg _ hmemory
  | readsStale _ _ hmemory =>
      subst hmemory
      exact filterMap_record_none _ rfl
  | frees _ hmemory =>
      subst hmemory
      exact filterMap_record_none _ rfl

theorem Executed.answers {j : Fin m} {memory : Memory n m} {draining : Draining}
    (executed : Executed s)
    (effect : DrainingEffect j true s.memory memory (s.databases j) draining)
    (hhistory : s.memory.history <+: memory.history) :
    Executed { s with
      memory := memory
      databases := Function.update s.databases j draining } := by
  cases effect with
  | moves hmemory _ hunanswered =>
      refine executed.unmoved hhistory ?_ (update_same Draining.unanswered hunanswered)
      rcases hmemory with rfl | rfl
      · rfl
      · exact filterMap_record_none _ rfl
  | pops insert queue _ hmemory _ hunanswered =>
      subst hmemory
      intro other hother
      change other ∈ Memory.popped (Memory.record _ (.popped j insert)) at hother
      rw [Memory.popped, filterMap_record] at hother
      rcases List.mem_append.mp hother with hbefore | hnew
      · rcases executed other hbefore with waits | answered
        · refine Or.inl ((exists_update Draining.unanswered waits).resolve_left ?_)
          rw [hunanswered.1]
          exact List.not_mem_nil
        · exact Or.inr (answered.grows hhistory)
      · refine Or.inl (exists_update_self Draining.unanswered ?_)
        rw [hunanswered.2]
        exact hnew
  | popsNothing queue _ hmemory _ hunanswered =>
      subst hmemory
      exact executed.unmoved hhistory rfl (update_same Draining.unanswered hunanswered)
  | answers insert event hevent hmemory _ hunanswered =>
      have hanswered : Answered (n := n) (m := m)
          { s with memory := memory, databases := Function.update s.databases j draining }
          insert := by
        refine ⟨j, ?_⟩
        rw [hmemory]
        rcases hevent with rfl | ⟨succeeded, rfl, hsucceeded⟩
        · exact Or.inr (List.mem_append_right _ (List.mem_singleton_self _))
        · rw [hsucceeded rfl]
          exact Or.inl (List.mem_append_right _ (List.mem_singleton_self _))
      have hpopped : memory.popped = s.memory.popped := by
        rw [hmemory]
        refine filterMap_record_none _ ?_
        rcases hevent with rfl | ⟨succeeded, rfl, -⟩
        · rfl
        · rfl
      intro other hother
      change other ∈ memory.popped at hother
      rw [hpopped] at hother
      rcases executed other hother with waits | answered
      · rcases exists_update Draining.unanswered waits with hmine | hothers
        · rw [hunanswered.1] at hmine
          rw [List.mem_singleton.mp hmine]
          exact Or.inr hanswered
        · exact Or.inl hothers
      · exact Or.inr (answered.grows hhistory)
  | fails fault hmemory hsame =>
      subst hmemory hsame
      exact executed.unmoved hhistory rfl (update_same Draining.unanswered rfl)
  | frees insert hmemory hpc _ hunanswered =>
      subst hmemory
      refine executed.unmoved hhistory (filterMap_record_none _ rfl)
        (update_same Draining.unanswered ?_)
      rw [hunanswered, Draining.unanswered, hpc]

theorem Executed.step {label : Label n m} (executed : Executed s)
    (hsucceeds : label.succeeds = true) (hstep : step config label s = some next) :
    Executed next := by
  have hhistory := history_grows hstep
  cases step_effect hstep with
  | begins i hostQueries memory queries _ hbegin hnext =>
      subst hnext
      obtain ⟨inserts, rfl, -⟩ := beginQueries_ok hbegin
      exact executed.unmoved hhistory rfl fun _ => rfl
  | beginFails i hostQueries fault hnext =>
      subst hnext
      exact executed.unmoved hhistory rfl fun _ => rfl
  | polls i garbage memory queries effect hnext =>
      subst hnext
      exact executed.unmoved hhistory (popped_of_polls effect) fun _ => rfl
  | drains j useDb hpc hnext =>
      subst hnext
      refine executed.unmoved hhistory rfl (update_same Draining.unanswered ?_)
      rw [Draining.unanswered, Draining.unanswered, hpc]
      rfl
  | answers j succeeds memory draining effect hnext =>
      subst hnext
      change succeeds = true at hsucceeds
      subst hsucceeds
      exact executed.answers effect hhistory

end Steps

end Execution

end ClusteredPoller.Handover
