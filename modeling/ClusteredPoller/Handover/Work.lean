import ClusteredPoller.Handover.Accounts
import ClusteredPoller.Library.Work

/-!
# The work that the queue makes

A database thread drains the queue as long as there is something in it.  What is
pushed meanwhile makes work for all database threads, and the poller pays for it.
-/

namespace ClusteredPoller.Handover

open Database Poller Queue
open Library
open scoped BigOperators

section Counts

variable {n m : Nat}

/-- The steps of `process_database_queue` up to its return, or to the next
insert, with or without something in the queue. -/
def DrainingPc.work (filled : Bool) : DrainingPc → Nat
  | .build _ => 9
  | .execute _ _ => 8
  | .freeInsert _ => 7
  | .commitTest => if filled then 6 else 3
  | .countUsed => if filled then 5 else 2
  | .pop => 4
  | .commitEnd => 1
  | .idle => 0

/-- The work for one insert of a poller, with so many database threads. -/
def insertWork (m : Nat) : Nat := 3 * m + 10

/-- The steps of `process_queries` up to its return, and those that its pushes
make for the database threads. -/
def QueriesPc.work (m : Nat) : QueriesPc → Nat
  | .countFree _ rest => rest.length * insertWork m + 3 * m + 12
  | .push _ rest => rest.length * insertWork m + 3 * m + 11
  | .readValues _ rest | .freeInsert _ rest => rest.length * insertWork m + 4
  | .loopTest rest => rest.length * insertWork m + 3
  | .countUsed => 2
  | .update _ => 1
  | .idle => 0

/-- Something is in the queue. -/
def Memory.filled (memory : Memory n m) : Bool := clbufCountUsed memory.queue > 0

/-- The work of the database threads, with what is in the queue. -/
def queueWork (memory : Memory n m) (databases : Fin m → Draining) : Nat :=
  6 * memory.queue.stored.length + ∑ j, (databases j).pc.work memory.filled

end Counts

section Filled

variable {n m : Nat} {memory memory' : Memory n m} {databases : Fin m → Draining}

theorem filled_eq (stores : memory.queue.Stores memory.queue.stored) :
    memory.filled = decide (0 < memory.queue.stored.length) := by
  have hcount := Clbuf.countUsed_eq stores
  unfold Memory.filled
  rw [decide_eq_decide, ← hcount]
  exact UInt32.lt_iff_toNat_lt

theorem work_filled (pc : DrainingPc) (filled : Bool) :
    pc.work false ≤ pc.work filled ∧ pc.work filled ≤ pc.work false + 3 := by
  cases filled with
  | false => exact ⟨Nat.le_refl _, Nat.le_add_right _ _⟩
  | true => cases pc with
    | _ => simp [DrainingPc.work]

theorem queueWork_congr (hqueue : memory'.queue = memory.queue) :
    queueWork memory' databases = queueWork memory databases := by
  unfold queueWork Memory.filled
  rw [hqueue]

/-- Another insert makes work for every database thread. -/
theorem queueWork_push {insert : Nat}
    (stores' : memory'.queue.Stores (memory.queue.stored ++ [insert])) :
    queueWork memory' databases ≤ queueWork memory databases + 3 * m + 6 := by
  have hgrow : ∑ j, (databases j).pc.work memory'.filled ≤
      ∑ j, (databases j).pc.work memory.filled + (Finset.univ : Finset (Fin m)).card * 3 := by
    refine Work.sum_grow fun j => ?_
    have hbefore := work_filled (databases j).pc memory.filled
    have hafter := work_filled (databases j).pc memory'.filled
    omega
  rw [Finset.card_univ, Fintype.card_fin] at hgrow
  unfold queueWork
  rw [stores'.stored_eq, List.length_append, List.length_singleton]
  omega

/-- A database thread works, with the queue as it is. -/
theorem queueWork_update {j : Fin m} {draining : Draining} {less more : Nat}
    (hqueue : memory'.queue = memory.queue)
    (hwork : draining.pc.work memory.filled + less ≤
      (databases j).pc.work memory.filled + more) :
    queueWork memory' (Function.update databases j draining) + less ≤
      queueWork memory databases + more := by
  have hshift : ∑ k, (Function.update databases j draining k).pc.work memory.filled + less ≤
      ∑ k, (databases k).pc.work memory.filled + more := by
    refine Work.sum_shift (Finset.mem_univ j) ?_ fun k hkj => ?_
    · rw [Function.update_self]
      exact hwork
    · rw [Function.update_of_ne hkj]
  rw [queueWork_congr hqueue]
  unfold queueWork
  omega

/-- An insert leaves the queue. -/
theorem queueWork_pop {j : Fin m} {draining : Draining} {insert : Nat} {rest : List Nat}
    (hstored : memory.queue.stored = insert :: rest) (stores' : memory'.queue.Stores rest)
    (hwork : draining.pc.work memory'.filled ≤ (databases j).pc.work memory.filled + 5)
    (hfilled : memory.filled = true) :
    queueWork memory' (Function.update databases j draining) < queueWork memory databases := by
  have hshift : ∑ k, (Function.update databases j draining k).pc.work memory'.filled + 0 ≤
      ∑ k, (databases k).pc.work memory.filled + 5 := by
    refine Work.sum_shift (Finset.mem_univ j) ?_ fun k hkj => ?_
    · rw [Function.update_self]
      exact hwork
    · rw [Function.update_of_ne hkj, hfilled]
      cases memory'.filled with
      | true => exact Nat.le_refl _
      | false => exact (work_filled _ true).1
  unfold queueWork
  rw [stores'.stored_eq, hstored, List.length_cons]
  omega

end Filled

/-! ## Database threads -/

section Drain

variable {n m : Nat} {config : Rtgconf} {j : Fin m} {succeeds : Bool}
  {memory memory' : Memory n m} {draining draining' : Draining}
  {databases : Fin m → Draining}

theorem afterInsert_work (draining : Draining) (filled : Bool) :
    draining.afterInsert.pc.work filled < 7 := by
  rcases afterInsert_pc draining with hpc | hpc <;> rw [hpc] <;> cases filled <;> decide

theorem afterLoop_work (draining : Draining) (filled : Bool) :
    draining.afterLoop.pc.work filled < 2 := by
  rcases afterLoop_pc draining with hpc | hpc <;> rw [hpc]
  · exact Nat.one_lt_two
  · exact Nat.zero_lt_two

/-- A step of a database thread does some of the work, or it fails. -/
theorem drainStep_work (stores : memory.queue.Stores memory.queue.stored)
    (hstep : drainStep config j succeeds memory (databases j) = some (memory', draining')) :
    queueWork memory' (Function.update databases j draining') < queueWork memory databases ∨
      (memory'.fault ≠ none ∧ memory'.queue = memory.queue ∧ draining' = databases j) := by
  have works : ∀ after : Memory n m, after.queue = memory.queue →
      draining'.pc.work memory.filled < (databases j).pc.work memory.filled →
      queueWork after (Function.update databases j draining') < queueWork memory databases :=
    fun after hqueue hless =>
      (queueWork_update hqueue hless :
        queueWork after (Function.update databases j draining') + 1 ≤
          queueWork memory databases + 0)
  cases hpc : (databases j).pc with
  | idle =>
      rw [drainStep, hpc] at hstep
      cases hstep
  | countUsed =>
      rw [drainStep, hpc] at hstep
      cases hstep
      refine Or.inl (works memory rfl ?_)
      rw [hpc]
      split
      · rename_i hfilled
        have : memory.filled = true := decide_eq_true hfilled
        rw [this]
        exact Nat.lt_succ_self 4
      · rename_i hempty
        have : memory.filled = false := decide_eq_false hempty
        rw [this]
        exact afterLoop_work _ _
  | pop =>
      rw [drainStep, hpc] at hstep
      dsimp only at hstep
      split at hstep
      · rename_i insert queue hpop
        obtain ⟨rest, hstored, hrest⟩ := stores.pop_some hpop
        cases hstep
        refine Or.inl (queueWork_pop hstored hrest ?_ ?_)
        · rw [hpc]
          exact Nat.le_refl 9
        · rw [filled_eq stores, hstored]
          rfl
      · rename_i queue hpop
        obtain ⟨hempty, rfl⟩ := stores.pop_none hpop
        cases hstep
        refine Or.inl (works memory rfl ?_)
        have hfilled : memory.filled = false := by rw [filled_eq stores, hempty]; rfl
        rw [hpc, hfilled]
        rcases afterInsert_pc (databases j) with hafter | hafter
        · rw [hafter]
          exact Nat.lt_succ_self 3
        · rw [hafter]
          exact (by decide : 2 < 4)
  | build insert =>
      rw [drainStep, hpc] at hstep
      obtain ⟨values, -, hbuild⟩ := Option.map_eq_some_iff.mp hstep
      split at hbuild
      · cases hbuild
        exact Or.inl (works memory rfl (by rw [hpc]; exact Nat.lt_succ_self 8))
      · cases hbuild
        exact Or.inl (works _ rfl (by rw [hpc]; exact (by decide : 7 < 9)))
      · cases hbuild
        exact Or.inr ⟨nofun, rfl, rfl⟩
  | execute insert query =>
      rw [drainStep, hpc] at hstep
      cases hstep
      exact Or.inl (works _ rfl (by rw [hpc]; exact Nat.lt_succ_self 7))
  | freeInsert insert =>
      rw [drainStep, hpc] at hstep
      cases hstep
      exact Or.inl (works _ rfl (by rw [hpc]; exact afterInsert_work _ _))
  | commitTest =>
      rw [drainStep, hpc] at hstep
      cases hstep
      refine Or.inl (works _ ?_ ?_)
      · split <;> rfl
      · rw [hpc]
        cases memory.filled with
        | true => exact Nat.lt_succ_self 5
        | false => exact Nat.lt_succ_self 2
  | commitEnd =>
      rw [drainStep, hpc] at hstep
      cases hstep
      refine Or.inl (works _ ?_ ?_)
      · split <;> rfl
      · rw [hpc]
        exact Nat.lt_succ_self 0

end Drain

/-! ## Pollers -/

section Queries

variable {n m : Nat} {i : Fin n} {garbage : UInt32} {memory memory' : Memory n m}
  {queries queries' : Queries} {s : State n m}

/-- A step of `process_queries` does some of the work, with what it makes for the
database threads. -/
theorem queriesStep_work (accounted : Accounted s)
    (hstep : queriesStep i garbage s.memory queries = some (memory', queries')) :
    queueWork memory' s.databases + queries'.pc.work m <
      queueWork s.memory s.databases + queries.pc.work m := by
  have works : ∀ after : Memory n m, after.queue = s.memory.queue →
      queries'.pc.work m < queries.pc.work m →
      queueWork after s.databases + queries'.pc.work m <
        queueWork s.memory s.databases + queries.pc.work m := by
    intro after hqueue hless
    rw [queueWork_congr hqueue]
    exact Nat.add_lt_add_left hless _
  obtain ⟨pc, nQueries, processedInserts, queuedQueries, queuedValues, queued⟩ := queries
  cases pc with
  | idle => cases hstep
  | loopTest rest =>
      cases rest with
      | nil =>
          cases hstep
          exact works s.memory rfl (by simp [QueriesPc.work, Queries.goto])
      | cons insert rest =>
          cases hstep
          refine works s.memory rfl ?_
          simp only [QueriesPc.work, Queries.goto, List.length_cons, insertWork, Nat.add_mul]
          omega
  | countFree insert rest =>
      unfold queriesStep at hstep
      dsimp only at hstep
      split at hstep
      · cases hstep
        exact works s.memory rfl (by simp [QueriesPc.work, Queries.goto])
      · cases hstep
        refine works _ rfl ?_
        simp only [QueriesPc.work, Queries.goto]
        omega
  | push insert rest =>
      unfold queriesStep at hstep
      dsimp only at hstep
      rcases clbufPush_cases s.memory.queue insert with haccepted | hrefused
      · have hpush : clbufPush s.memory.queue (some insert) =
            (some insert, (clbufPush s.memory.queue (some insert)).2) :=
          Prod.ext haccepted rfl
        have hstores := accounted.push_stores hpush
        rw [hpush] at hstep
        cases hstep
        refine Nat.lt_of_le_of_lt (Nat.add_le_add_right (queueWork_push hstores) _) ?_
        simp only [QueriesPc.work]
        omega
      · rw [hrefused] at hstep
        cases hstep
        refine works _ rfl ?_
        simp only [QueriesPc.work, Queries.goto]
        omega
  | readValues insert rest =>
      unfold queriesStep at hstep
      dsimp only at hstep
      split at hstep
      · cases hstep
        exact works _ rfl (Nat.lt_succ_self _)
      · cases hstep
        exact works _ rfl (Nat.lt_succ_self _)
  | freeInsert insert rest =>
      cases hstep
      exact works _ rfl (Nat.lt_succ_self _)
  | countUsed =>
      cases hstep
      exact works _ rfl (Nat.lt_succ_self 1)
  | update depth =>
      cases hstep
      exact works _ rfl (Nat.lt_succ_self 0)

end Queries

end ClusteredPoller.Handover
