import ClusteredPoller.Handover.Execution
import ClusteredPoller.RunThreads.Effects
import ClusteredPoller.Threads.HostExclusion

/-!
# What is left in the queue

`run_threads` frees the queue when all threads have returned.  The database
threads look at the stop flag before they look at the queue, and they do not
wait for the pollers.
-/

namespace ClusteredPoller.RunThreads

open Handover (Accounted Draining)
open Library Queue

/-- The poller is about to push an insert. -/
def pushing : Handover.QueriesPc → Bool
  | .push _ _ => true
  | _ => false

section Drained

variable {n m : Nat}

def QueueEmpty (s : Program n m) : Prop := clbufCountUsed s.handover.memory.queue = 0

instance (s : Program n m) : Decidable (QueueEmpty s) :=
  inferInstanceAs (Decidable (clbufCountUsed s.handover.memory.queue = 0))

/-- Every database thread is behind its loop. -/
def AllLeft (s : Program n m) : Prop := ∀ j, (s.databases j).pc.left = true

instance (s : Program n m) : Decidable (AllLeft s) :=
  inferInstanceAs (Decidable (∀ j, (s.databases j).pc.left = true))

/-- The last database thread finds the stop flag set only when the queue is
empty, and no poller pushes afterwards. -/
def KeepsDraining : Label n m → Program n m → Prop
  | .database j _, s => (s.databases j).pc = .loopTest → s.threads.threadStopRequested = true →
      (∀ k, k ≠ j → (s.databases k).pc.left = true) → QueueEmpty s
  | .queries i _, s => AllLeft s → pushing (s.handover.pollers i).pc = false
  | _, _ => True

instance (label : Label n m) (s : Program n m) : Decidable (KeepsDraining label s) := by
  cases label with
  | database j answers =>
      exact inferInstanceAs (Decidable ((s.databases j).pc = .loopTest →
        s.threads.threadStopRequested = true →
        (∀ k, k ≠ j → (s.databases k).pc.left = true) → QueueEmpty s))
  | queries i garbage =>
      exact inferInstanceAs (Decidable (AllLeft s → pushing (s.handover.pollers i).pc = false))
  | threads | main => exact .isTrue trivial

/-- The connection is up and every call succeeds. -/
def Label.databaseUp : Label n m → Bool
  | .database _ answers => answers.connects && answers.pings && answers.succeeds
  | _ => true

/-- Nothing that was pushed is thrown away: the queue is empty, and every insert
has been executed, unless it had no query. -/
structure NothingLost (s : Program n m) : Prop where
  empty : QueueEmpty s
  executed : ∀ insert ∈ s.handover.memory.pushed, ∃ j,
    .executed j insert true ∈ s.handover.memory.history ∨
      .skipped j insert ∈ s.handover.memory.history

/-! ## The queue under a step -/

section Queue

variable {config : Rtgconf} {h h' : Handover.State n m} {i : Fin n}

theorem countUsed_eq_zero_iff (accounted : Accounted h) :
    clbufCountUsed h.memory.queue = 0 ↔ h.memory.queue.stored = [] := by
  rw [← UInt32.toNat_inj, Clbuf.countUsed_eq accounted.stores]
  exact List.length_eq_zero_iff

/-- A push leaves something in the queue, whether it is accepted or refused. -/
theorem push_nonempty (accounted : Accounted h) {insert : Nat} {rest : List Nat}
    {garbage : UInt32} (hpc : (h.pollers i).pc = .push insert rest)
    (hstep : Handover.step config (.poller i garbage) h = some h') :
    clbufCountUsed h'.memory.queue ≠ 0 := by
  have accounted' := accounted.step hstep
  rw [Ne, countUsed_eq_zero_iff accounted']
  unfold Handover.step at hstep
  split at hstep
  · cases hstep
  · obtain ⟨stepped, hqueries, rfl⟩ := Option.map_eq_some_iff.mp hstep
    rw [Handover.queriesStep, hpc] at hqueries
    dsimp only at hqueries
    rcases Handover.clbufPush_cases h.memory.queue insert with haccepted | hrefused
    · have hpush : clbufPush h.memory.queue (some insert) =
          (some insert, (clbufPush h.memory.queue (some insert)).2) := Prod.ext haccepted rfl
      have hstores := accounted.push_stores hpush
      rw [hpush] at hqueries
      cases hqueries
      change Clbuf.stored (clbufPush h.memory.queue (some insert)).2 ≠ []
      rw [hstores.stored_eq]
      exact List.append_ne_nil_of_right_ne_nil _ (List.cons_ne_nil _ _)
    · have hfull : h.memory.queue.stored ≠ [] := by
        intro hempty
        have hroom : h.memory.queue.stored.length < h.memory.queue.allocatedSize.toNat := by
          rw [hempty]
          exact h.memory.queue.allocatedSize_pos
        have haccepted := (Clbuf.push_room accounted.stores hroom insert).1
        rw [hrefused] at haccepted
        cases haccepted
      rw [hrefused] at hqueries
      cases hqueries
      exact hfull

/-- Other steps of the pollers leave the queue as it is. -/
theorem queue_of_queries {garbage : UInt32}
    (hstep : (∃ inserts, Handover.step config (.begin i inserts) h = some h') ∨
      Handover.step config (.poller i garbage) h = some h')
    (hpc : pushing (h.pollers i).pc = false) : h'.memory.queue = h.memory.queue := by
  rcases hstep with ⟨inserts, hbegin⟩ | hpoller
  · cases Handover.step_effect hbegin with
    | begins _ _ memory queries _ hqueries hnext =>
        obtain ⟨fresh, hmemory, -⟩ := Handover.beginQueries_ok hqueries
        rw [hnext, hmemory]
    | beginFails _ _ fault hnext =>
        rw [hnext]
        rfl
  · cases Handover.step_effect hpoller with
    | polls _ _ memory queries effect hnext =>
        rw [hnext]
        cases effect with
        | moves hmemory =>
            subst hmemory
            rfl
        | pushes insert _ _ _ _ _ _ _ hpush =>
            obtain ⟨rest, hpush⟩ := hpush
            rw [hpush] at hpc
            cases hpc
        | refuses _ hmemory =>
            subst hmemory
            rfl
        | reads _ _ hmemory =>
            subst hmemory
            rfl
        | readsStale _ _ hmemory =>
            subst hmemory
            rfl
        | frees _ hmemory =>
            subst hmemory
            rfl

/-- A call of `process_queries` begins where no insert is in hand. -/
theorem begin_not_pushing {inserts : Poller.Inserts}
    (hbegin : Handover.step config (.begin i inserts) h = some h') :
    pushing (h.pollers i).pc = false := by
  cases Handover.step_effect hbegin with
  | begins _ _ _ _ hpc => rw [hpc]; rfl
  | beginFails _ _ _ _ hpc => rw [hpc]; rfl

/-- The pollers do not empty the queue. -/
theorem queries_nonempty (accounted : Accounted h) {garbage : UInt32}
    (hstep : (∃ inserts, Handover.step config (.begin i inserts) h = some h') ∨
      Handover.step config (.poller i garbage) h = some h')
    (hnonempty : pushing (h.pollers i).pc = true ∨ clbufCountUsed h.memory.queue ≠ 0) :
    clbufCountUsed h'.memory.queue ≠ 0 := by
  cases hpushing : pushing (h.pollers i).pc with
  | false =>
      rw [queue_of_queries hstep hpushing]
      exact hnonempty.resolve_left (by rw [hpushing]; exact Bool.false_ne_true)
  | true =>
      rcases hstep with ⟨inserts, hbegin⟩ | hpoller
      · rw [begin_not_pushing hbegin] at hpushing
        cases hpushing
      · cases hpc : (h.pollers i).pc with
        | push insert rest => exact push_nonempty accounted hpc hpoller
        | _ =>
            rw [hpc] at hpushing
            cases hpushing

end Queue

/-! ## The database threads and the main thread -/

section Program

variable {config : Rtgconf} {s next : Program n m}

structure Orderly (s : Program n m) : Prop where
  accounted : Accounted s.handover
  /-- Outside the two functions, a database thread holds no insert. -/
  idle : ∀ j, (s.databases j).pc ≠ .draining → (s.handover.databases j).pc = .idle
  joined : s.main ≠ .joinDatabases → ∀ j, (s.databases j).pc = .returned

/-- The pollers leave the calls of the database threads alone. -/
theorem databases_of_queries {h h' : Handover.State n m} {i : Fin n} {garbage : UInt32}
    (hstep : (∃ inserts, Handover.step config (.begin i inserts) h = some h') ∨
      Handover.step config (.poller i garbage) h = some h') : h'.databases = h.databases := by
  rcases hstep with ⟨inserts, hbegin⟩ | hpoller
  · cases Handover.step_effect hbegin with
    | begins _ _ _ _ _ _ hnext => rw [hnext]
    | beginFails _ _ _ hnext => rw [hnext]
  · cases Handover.step_effect hpoller with
    | polls _ _ _ _ _ hnext => rw [hnext]

/-- The other database threads stay where they are. -/
theorem databases_of_drain {h h' : Handover.State n m} {j : Fin m}
    (hstep : (∃ useDb, Handover.step config (.drain j useDb) h = some h') ∨
      ∃ succeeds, Handover.step config (.database j succeeds) h = some h') {k : Fin m}
    (hkj : k ≠ j) : h'.databases k = h.databases k := by
  rcases hstep with ⟨useDb, hdrain⟩ | ⟨succeeds, hdatabase⟩
  · cases Handover.step_effect hdrain with
    | drains _ _ _ hnext =>
        rw [hnext]
        exact Function.update_of_ne hkj _ _
  · cases Handover.step_effect hdatabase with
    | answers _ _ _ _ _ hnext =>
        rw [hnext]
        exact Function.update_of_ne hkj _ _

theorem setDatabase_self {j : Fin m} {thread : DatabaseThread} :
    (s.setDatabase j thread).databases j = thread := Function.update_self ..

theorem setDatabase_of_ne {j k : Fin m} {thread : DatabaseThread} (hkj : k ≠ j) :
    (s.setDatabase j thread).databases k = s.databases k := Function.update_of_ne hkj _ _

/-- A step of one database thread, as long as the main thread waits for it. -/
theorem orderly_of_database {j : Fin m} (orderly : Orderly s)
    (accounted : Accounted next.handover) (hbefore : (s.databases j).pc ≠ .returned)
    (hmain : next.main = s.main)
    (hself : (next.databases j).pc ≠ .draining → (next.handover.databases j).pc = .idle)
    (hothers : ∀ k, k ≠ j → next.databases k = s.databases k ∧
      next.handover.databases k = s.handover.databases k) : Orderly next := by
  refine ⟨accounted, fun k hpc => ?_, fun hjoined => ?_⟩
  · by_cases hkj : k = j
    · subst hkj
      exact hself hpc
    · rw [(hothers k hkj).1] at hpc
      rw [(hothers k hkj).2]
      exact orderly.idle k hpc
  · rw [hmain] at hjoined
    exact absurd (orderly.joined hjoined j) hbefore

theorem Orderly.step {label : Label n m} (orderly : Orderly s)
    (hstep : step config label s = some next) : Orderly next := by
  have accounted : Accounted next.handover :=
    accounted_keeps config label s next trivial orderly.accounted hstep
  cases step_effect hstep with
  | threads label threads hnext =>
      subst hnext
      exact ⟨accounted, orderly.idle, orderly.joined⟩
  | queries i garbage threads handover hqueries hnext =>
      subst hnext
      refine ⟨accounted, ?_, orderly.joined⟩
      change ∀ j, _ → (handover.databases j).pc = .idle
      rw [databases_of_queries hqueries]
      exact orderly.idle
  | leaves j answers hpc _ hnext =>
      subst hnext
      refine orderly_of_database orderly accounted (by rw [hpc]; nofun) rfl (fun _ => ?_)
        fun k hkj => ⟨setDatabase_of_ne hkj, rfl⟩
      exact orderly.idle j (by rw [hpc]; nofun)
  | calls j answers handover hpc hdrain hnext =>
      subst hnext
      refine orderly_of_database orderly accounted (by rw [hpc]; nofun) rfl (fun hdraining => ?_)
        fun k hkj => ⟨setDatabase_of_ne hkj, databases_of_drain (Or.inl ⟨_, hdrain⟩) hkj⟩
      exact absurd (congrArg DatabaseThread.pc setDatabase_self) hdraining
  | drains j answers handover hpc hdatabase hnext =>
      subst hnext
      exact orderly_of_database orderly accounted (by rw [hpc]; nofun) rfl
        (fun hdraining => absurd hpc hdraining)
        fun k hkj => ⟨rfl, databases_of_drain (Or.inr ⟨_, hdatabase⟩) hkj⟩
  | closes j answers hpc hnext =>
      subst hnext
      refine orderly_of_database orderly accounted (by rw [hpc]; nofun) rfl (fun _ => ?_)
        fun k hkj => ⟨setDatabase_of_ne hkj, rfl⟩
      exact orderly.idle j (by rw [hpc]; nofun)
  | moves j answers thread hpc hidle _ hthread hnext =>
      subst hnext
      refine orderly_of_database orderly accounted ?_ rfl (fun _ => ?_)
        fun k hkj => ⟨setDatabase_of_ne hkj, rfl⟩
      · intro hreturned
        rw [hreturned] at hpc
        cases hpc
      · by_cases hdraining : (s.databases j).pc = .draining
        · exact hidle hdraining
        · exact orderly.idle j hdraining
  | joins main hreturned hmain hnext =>
      subst hnext
      refine ⟨accounted, orderly.idle, fun _ => ?_⟩
      by_cases hfirst : s.main = .joinDatabases
      · exact hreturned hfirst
      · exact orderly.joined hfirst

/-! ## Behind the last loop -/

theorem allLeft_setDatabase_iff {j : Fin m} {thread : DatabaseThread} :
    AllLeft (s.setDatabase j thread) ↔
      thread.pc.left = true ∧ ∀ k, k ≠ j → (s.databases k).pc.left = true := by
  constructor
  · intro hleft
    constructor
    · have hself := hleft j
      rwa [setDatabase_self] at hself
    · intro k hkj
      have hother := hleft k
      rwa [setDatabase_of_ne hkj] at hother
  · rintro ⟨hthread, hothers⟩ k
    by_cases hkj : k = j
    · rwa [hkj, setDatabase_self]
    · rw [setDatabase_of_ne hkj]
      exact hothers k hkj

/-- With all database threads behind their loops, the queue is empty. -/
def Emptied (s : Program n m) : Prop := AllLeft s → QueueEmpty s

theorem Emptied.step {label : Label n m} (emptied : Emptied s) (hguard : KeepsDraining label s)
    (hstep : step config label s = some next) : Emptied next := by
  intro hleft
  cases step_effect hstep with
  | threads label threads hnext =>
      subst hnext
      exact emptied hleft
  | queries i garbage threads handover hqueries hnext =>
      subst hnext
      have hqueue : handover.memory.queue = s.handover.memory.queue :=
        queue_of_queries hqueries (hguard hleft)
      change clbufCountUsed handover.memory.queue = 0
      rw [hqueue]
      exact emptied hleft
  | leaves j answers hpc hstop hnext =>
      subst hnext
      exact hguard hpc hstop (allLeft_setDatabase_iff.mp hleft).2
  | calls j answers handover _ _ hnext =>
      subst hnext
      cases ((@allLeft_setDatabase_iff _ _ s j _).mp hleft).1
  | drains j answers handover hpc _ hnext =>
      subst hnext
      have hself : (s.databases j).pc.left = true := hleft j
      rw [hpc] at hself
      cases hself
  | closes j answers hpc hnext =>
      subst hnext
      refine emptied fun k => ?_
      by_cases hkj : k = j
      · rw [hkj, hpc]
        rfl
      · exact (allLeft_setDatabase_iff.mp hleft).2 k hkj
  | moves j answers thread _ _ _ hthread hnext =>
      subst hnext
      have hself := (allLeft_setDatabase_iff.mp hleft).1
      rw [hthread.1] at hself
      cases hself
  | joins main _ _ hnext =>
      subst hnext
      exact emptied hleft

/-- With all database threads behind their loops, something is in the queue. -/
def Stranded (s : Program n m) : Prop := AllLeft s ∧ ¬ QueueEmpty s

/-- Nobody takes it out. -/
theorem Stranded.step {label : Label n m} (orderly : Orderly s) (stranded : Stranded s)
    (hstep : step config label s = some next) : Stranded next := by
  obtain ⟨hleft, hnonempty⟩ := stranded
  have outside : ∀ {j : Fin m}, (s.databases j).pc.left = false → False := by
    intro j hpc
    rw [hleft j] at hpc
    cases hpc
  cases step_effect hstep with
  | threads label threads hnext =>
      subst hnext
      exact ⟨hleft, hnonempty⟩
  | queries i garbage threads handover hqueries hnext =>
      subst hnext
      exact ⟨hleft, queries_nonempty orderly.accounted hqueries (Or.inr hnonempty)⟩
  | leaves j answers hpc _ _ => exact (outside (by rw [hpc]; rfl)).elim
  | calls j answers handover hpc _ _ => exact (outside (by rw [hpc]; rfl)).elim
  | drains j answers handover hpc _ _ => exact (outside (by rw [hpc]; rfl)).elim
  | closes j answers hpc hnext =>
      subst hnext
      exact ⟨allLeft_setDatabase_iff.mpr ⟨rfl, fun k _ => hleft k⟩, hnonempty⟩
  | moves j answers thread hpc _ _ _ _ => exact (outside hpc).elim
  | joins main _ _ hnext =>
      subst hnext
      exact ⟨hleft, hnonempty⟩

theorem stranded_of_unguarded {label : Label n m} (orderly : Orderly s)
    (hguard : ¬ KeepsDraining label s) (hstep : step config label s = some next) :
    Stranded next := by
  cases label with
  | threads | main => exact absurd trivial hguard
  | queries i garbage =>
      have hleft : AllLeft s := by
        by_contra hnot
        exact hguard fun hleft => absurd hleft hnot
      have hpushing : pushing (s.handover.pollers i).pc = true := by
        by_contra hnot
        exact hguard fun _ => Bool.eq_false_of_not_eq_true hnot
      cases step_effect hstep with
      | queries _ _ threads handover hqueries hnext =>
          subst hnext
          exact ⟨hleft, queries_nonempty orderly.accounted hqueries (Or.inl hpushing)⟩
  | database j answers =>
      have hlast : (s.databases j).pc = .loopTest ∧ s.threads.threadStopRequested = true ∧
          (∀ k, k ≠ j → (s.databases k).pc.left = true) ∧ ¬ QueueEmpty s := by
        by_contra hnot
        refine hguard fun hpc hstop hothers => ?_
        by_contra hnonempty
        exact hnot ⟨hpc, hstop, hothers, hnonempty⟩
      obtain ⟨hloop, hstop, hothers, hnonempty⟩ := hlast
      cases step_effect hstep with
      | leaves _ _ _ _ hnext =>
          subst hnext
          exact ⟨allLeft_setDatabase_iff.mpr ⟨rfl, hothers⟩, hnonempty⟩
      | calls _ _ _ hpc => cases hloop.symm.trans hpc
      | drains _ _ _ hpc => cases hloop.symm.trans hpc
      | closes _ _ hpc => cases hloop.symm.trans hpc
      | moves _ _ _ _ _ hrunning =>
          rw [hrunning hloop] at hstop
          cases hstop

/-- With the database up, what is popped is executed. -/
theorem executed_step {label : Label n m} (executed : Handover.Executed s.handover)
    (hup : label.databaseUp = true) (hstep : step config label s = some next) :
    Handover.Executed next.handover := by
  cases step_effect hstep with
  | threads label threads hnext =>
      subst hnext
      exact executed
  | queries i garbage threads handover hqueries hnext =>
      subst hnext
      rcases hqueries with ⟨inserts, hbegin⟩ | hpoller
      · exact executed.step rfl hbegin
      · exact executed.step rfl hpoller
  | leaves j answers _ _ hnext =>
      subst hnext
      exact executed
  | calls j answers handover _ hdrain hnext =>
      subst hnext
      exact executed.step rfl hdrain
  | drains j answers handover _ hdatabase hnext =>
      subst hnext
      have hsucceeds : answers.succeeds = true := (Bool.and_eq_true_iff.mp hup).2
      refine executed.step ?_ hdatabase
      exact hsucceeds
  | closes j answers _ hnext =>
      subst hnext
      exact executed
  | moves j answers thread _ _ _ _ hnext =>
      subst hnext
      exact executed
  | joins main _ _ hnext =>
      subst hnext
      exact executed

/-- Where the queue is empty and the database threads have returned, everything
has been executed. -/
theorem nothingLost_of_empty (orderly : Orderly s) (executed : Handover.Executed s.handover)
    (hreturned : ∀ j, (s.databases j).pc = .returned) (hempty : QueueEmpty s) :
    NothingLost s := by
  refine ⟨hempty, fun insert hpushed => ?_⟩
  rw [orderly.accounted.order, (countUsed_eq_zero_iff orderly.accounted).mp hempty,
    List.append_nil] at hpushed
  rcases executed insert hpushed with ⟨j, hj⟩ | answered
  · have hidle := orderly.idle j (by rw [hreturned j]; nofun)
    rw [Draining.unanswered, hidle] at hj
    exact (List.not_mem_nil hj).elim
  · exact answered

end Program

/-! ## All runs -/

section Runs

variable {config : Rtgconf} {hosts : List Poller.Queryhost} {clock : Nat} {nextIteration : Int}
  {statistics : Threads.Statistics}

theorem orderly_start (hqueue : 0 < config.maxDbQueue.toNat) :
    Orderly (Program.start config hqueue hosts clock nextIteration statistics : Program n m) :=
  ⟨Handover.accounted_start config.maxDbQueue hqueue, fun _ _ => rfl,
    fun hjoined => absurd rfl hjoined⟩

theorem orderly_keeps (config : Rtgconf) :
    Transition.Keeps (step config) (fun _ _ => True) (Orderly (n := n) (m := m)) :=
  fun _ _ _ _ orderly hstep => orderly.step hstep

theorem emptied_start (hqueue : 0 < config.maxDbQueue.toNat) :
    Emptied (Program.start config hqueue hosts clock nextIteration statistics : Program n m) :=
  fun _ => (countUsed_eq_zero_iff (orderly_start hqueue).accounted).mpr
    (Clbuf.stores_create config.maxDbQueue hqueue).stored_eq

/-- When `run_threads` frees the queue, nothing is lost exactly if the last
database thread left its loop with an empty queue and no poller has pushed
since. -/
theorem nothing_lost_iff (hqueue : 0 < config.maxDbQueue.toNat) {labels : List (Label n m)}
    {final : Program n m} (hup : ∀ label ∈ labels, label.databaseUp = true)
    (hrun : Transition.run (step config) labels
      (Program.start config hqueue hosts clock nextIteration statistics) = some final)
    (hfree : final.main = .freeQueue) :
    NothingLost final ↔ Transition.Guarded (step config) KeepsDraining labels
      (Program.start config hqueue hosts clock nextIteration statistics) := by
  have orderly : Orderly final := (orderly_keeps config).run
    (Transition.guarded_of_labels (fun _ _ _ => trivial) _) (orderly_start hqueue) hrun
  have executedKeeps : Transition.Keeps (step config)
      (fun label _ => label.databaseUp = true)
      fun s : Program n m => Handover.Executed s.handover :=
    fun _ _ _ hup executed hstep => executed_step executed hup hstep
  have executed : Handover.Executed final.handover := executedKeeps.run
    (Transition.guarded_of_labels (fun label hlabel _ => hup label hlabel) _)
    (fun _ hinsert => (List.not_mem_nil hinsert).elim) hrun
  have hreturned := orderly.joined (by rw [hfree]; nofun)
  have hleft : AllLeft final := fun j => by rw [hreturned j]; rfl
  constructor
  · intro nothingLost
    exact Transition.guarded_of_unmarked (orderly_keeps config)
      (fun _ _ _ orderly stranded hstep => stranded.step orderly hstep)
      (fun _ _ _ orderly hguard hstep => stranded_of_unguarded orderly hguard hstep)
      (orderly_start hqueue) hrun fun stranded => stranded.2 nothingLost.empty
  · intro guarded
    have emptiedKeeps : Transition.Keeps (step config) KeepsDraining (Emptied (n := n) (m := m)) :=
      fun _ _ _ hguard emptied hstep => emptied.step hguard hstep
    have emptied : Emptied final := emptiedKeeps.run guarded (emptied_start hqueue) hrun
    exact nothingLost_of_empty orderly executed hreturned (emptied hleft)

end Runs

end Drained

/-! ## A reload during a round -/

section Reload

open Threads (oneCounter onlyPoller)
open Handover (onlyThread)

/-- The smallest queue. -/
def smallestQueue : Rtgconf := { defaultRtgconf with maxDbQueue := 100 }

/-- A gauge that read 7 in an earlier round. -/
def oneGauge : List Poller.Queryhost :=
  oneCounter.map fun target =>
    { target with
      rows := target.rows.map fun row =>
        { row with bits := 0, cachedCounter := 7, cachedTime := 1299999700 } }

def gaugeStart : Program 1 1 :=
  Program.start smallestQueue (by decide) oneGauge 1299999999750 0 Threads.Statistics.initial

def threadSteps (label : Threads.Label 1) (steps : Nat) : List (Label 1 1) :=
  List.replicate steps (.threads label)

def databaseSteps (steps : Nat) : List (Label 1 1) := List.replicate steps (.database onlyThread {})

/-- The monitor starts a round, and the poller reads 9 from the gauge. -/
def upToQueries : List (Label 1 1) :=
  threadSteps (.poller onlyPoller {}) 5 ++ threadSteps (.tick 250) 1 ++ threadSteps .monitor 9 ++
    threadSteps (.poller onlyPoller {}) 10 ++
    threadSteps (.poller onlyPoller { reply := some 9 }) 1 ++
    threadSteps (.poller onlyPoller {}) 4

/-- A signal arrives on the main thread. -/
def hangup : List (Label 1 1) :=
  threadSteps (.signal (.other 0) .hup) 1 ++ threadSteps (.handler (.other 0)) 6

/-- The poller queues its insert. -/
def queueOne : List (Label 1 1) := List.replicate 8 (.queries onlyPoller 0)

/-- The poller and the monitor return, and the main thread joins all. -/
def afterQueries : List (Label 1 1) :=
  threadSteps (.poller onlyPoller {}) 6 ++ threadSteps .monitor 3 ++ List.replicate 3 .main

/-- The database thread executes the query before the signal. -/
def drainedFirst : List (Label 1 1) :=
  upToQueries ++ queueOne ++ databaseSteps 14 ++ hangup ++ databaseSteps 2 ++ afterQueries

theorem nothing_lost_iff_drainedFirst :
    ∃ final, Transition.run (step smallestQueue) drainedFirst gaugeStart = some final ∧
      final.handover.memory.pushed = [0] ∧
      (NothingLost final ↔
        Transition.Guarded (step smallestQueue) KeepsDraining drainedFirst gaugeStart) :=
  ⟨_, rfl, rfl, nothing_lost_iff (by decide) (by decide) (rfl :
    Transition.run (step smallestQueue) drainedFirst gaugeStart = some _) rfl⟩

def ifInErrors : CString := CString.ofString "ifInErrors_1"

def ifOutErrors : CString := CString.ofString "ifOutErrors_1"

/-- The gauge in three tables. -/
def threeGauges : List Poller.Queryhost :=
  oneGauge.map fun target =>
    { target with
      rows := target.rows.flatMap fun row =>
        [row, { row with table := some ifInErrors }, { row with table := some ifOutErrors }] }

def gaugesStart : Program 1 1 :=
  Program.start smallestQueue (by decide) threeGauges 1299999999750 0 Threads.Statistics.initial

/-- Each gauge reads 9, and the poller queues its inserts. -/
def queueThree : List (Label 1 1) :=
  threadSteps (.poller onlyPoller {}) 5 ++ threadSteps (.tick 250) 1 ++ threadSteps .monitor 9 ++
    threadSteps (.poller onlyPoller {}) 10 ++
    threadSteps (.poller onlyPoller { reply := some 9 }) 3 ++
    threadSteps (.poller onlyPoller {}) 4 ++ List.replicate 16 (.queries onlyPoller 0)

/-- The database thread sends three queries before the signal, of which the
second fails. -/
def refusedSecond : List (Label 1 1) :=
  queueThree ++ databaseSteps 13 ++ [.database onlyThread { succeeds := false }] ++
    databaseSteps 12 ++ hangup ++ databaseSteps 2 ++ afterQueries

/-- The database thread returns while the poller is still at its host. -/
def leftFirst : List (Label 1 1) :=
  upToQueries ++ hangup ++ databaseSteps 2 ++ queueOne ++ afterQueries

/-- The insert is still in the queue when the queue is freed. -/
theorem leftFirst_loses :
    (∀ label ∈ leftFirst, label.databaseUp = true) ∧
    ∃ final, Transition.run (step smallestQueue) leftFirst gaugeStart = some final ∧
      final.main = .freeQueue ∧ final.handover.memory.pushed = [0] ∧
      final.handover.memory.popped = [] ∧ ¬ QueueEmpty final ∧ ¬ NothingLost final := by
  refine ⟨by decide, ?_⟩
  have hrun : ∃ final, Transition.run (step smallestQueue) leftFirst gaugeStart = some final ∧
      final.main = .freeQueue ∧ final.handover.memory.pushed = [0] ∧
      final.handover.memory.popped = [] ∧ clbufCountUsed final.handover.memory.queue = 1 :=
    ⟨_, rfl, rfl, rfl, rfl, rfl⟩
  obtain ⟨final, hrun, hmain, hpushed, hpopped, hcount⟩ := hrun
  have hnonempty : ¬ QueueEmpty final := by
    unfold QueueEmpty
    rw [hcount]
    decide
  exact ⟨final, hrun, hmain, hpushed, hpopped, hnonempty, fun lost => hnonempty lost.empty⟩

end Reload

end ClusteredPoller.RunThreads
