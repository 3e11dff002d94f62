import ClusteredPoller.Handover.Work
import ClusteredPoller.RunThreads.Pipeline
import ClusteredPoller.Threads.Work

/-!
# The work of the whole program after a stop request

Every step of a thread does some of the work that is left, and only a call of
`cllog` makes more of it.  So the threads make only so many steps, in whatever
order.
-/

namespace ClusteredPoller.RunThreads

open Handover (insertWork queueWork)
open Library
open Threads (Limits RowsWithin ThreadId)
open scoped BigOperators

section Counts

/-- The steps of `database_run` up to its return, without those of the functions
that drain the queue. -/
def DatabasePc.work : DatabasePc → Nat
  | .connect => 12
  | .ping => 11
  | .call => 10
  | .draining => 4
  | .sleep => 3
  | .loopTest => 2
  | .closing => 1
  | .returned => 0

def MainPc.work : MainPc → Nat
  | .joinDatabases => 3
  | .joinPollers => 2
  | .joinMonitor => 1
  | .freeQueue => 0

/-- A call of `process_queries` has an insert for each table at most. -/
def limits (m rows : Nat) : Limits where
  rows := rows
  queries := Poller.maxTables * insertWork m + 4

variable {n m : Nat}

/-- A poller in `process_queries` is at the steps of that call. -/
def Program.pollerWork (rows : Nat) (s : Program n m) (i : Fin n) : Nat :=
  if (s.handover.pollers i).pc = .idle then (s.threads.pollers i).pc.work (limits m rows)
  else (s.handover.pollers i).pc.work m + 7

/-- The work of the database threads and the main thread. -/
def Program.restWork (s : Program n m) : Nat :=
  ∑ j, (s.databases j).pc.work + queueWork s.handover.memory s.handover.databases + s.main.work

/-- The work of the handlers and in `cllog`. -/
def Program.sideWork (aside : Finset (ThreadId n)) (s : Program n m) : Nat :=
  ∑ thread ∈ aside, s.threads.sideWork thread

/-- All work that is left.  A fault ends it. -/
def Program.work (rows : Nat) (aside : Finset (ThreadId n)) (s : Program n m) : Nat :=
  ∑ i, s.pollerWork rows i + s.threads.monitor.pc.work + s.sideWork aside + s.restWork +
    if s.faulted then 0 else 1

/-- Some thread works: neither does time pass, nor is `cllog` merely called. -/
def Label.works : Label n m → Bool
  | .threads (.tick _) | .threads (.callsCllog _) => false
  | _ => true

/-- The thread that calls `cllog`. -/
def Label.caller : Label n m → Option (ThreadId n)
  | .threads (.callsCllog thread) => some thread
  | _ => none

def Label.calls (label : Label n m) : Bool := label.caller.isSome

def Label.isSignal : Label n m → Bool
  | .threads label => label.isSignal
  | _ => false

/-- No signal arrives, and only these threads call `cllog`. -/
def Label.Quiet (aside : Finset (ThreadId n)) (label : Label n m) : Prop :=
  label.isSignal = false ∧ ∀ thread ∈ label.caller, thread ∈ aside

/-- What holds after a stop request.  Only these threads run handlers, or are in
`cllog`. -/
structure Stopping (rows : Nat) (aside : Finset (ThreadId n)) (s : Program n m) : Prop where
  stop : s.threads.threadStopRequested = true
  within : RowsWithin (limits m rows) s.threads
  ready : ∀ thread, thread ∉ aside → s.threads.Ready thread
  orderly : Orderly s
  handing : Handing s

end Counts

section Steps

variable {n m : Nat} {config : Rtgconf} {s next : Program n m} {rows : Nat}
  {aside : Finset (ThreadId n)}

theorem running_of_step {label : Label n m} (hstep : step config label s = some next) :
    s.faulted = false := by
  unfold step at hstep
  split at hstep
  · cases hstep
  · rename_i hrunning
    exact Bool.eq_false_of_not_eq_true hrunning

/-- Some part of the work is done, and the others are not more than before. -/
theorem work_lt {label : Label n m} (hstep : step config label s = some next)
    (hparts : ∑ i, next.pollerWork rows i + next.threads.monitor.pc.work +
        next.sideWork aside + next.restWork <
      ∑ i, s.pollerWork rows i + s.threads.monitor.pc.work +
        s.sideWork aside + s.restWork) : next.work rows aside < s.work rows aside := by
  unfold Program.work
  rw [running_of_step hstep, if_neg Bool.false_ne_true]
  have hfault : (if next.faulted = true then 0 else 1) ≤ 1 := by split <;> omega
  omega

/-- The step ends in a fault. -/
theorem work_lt_of_fault {label : Label n m} (hstep : step config label s = some next)
    (hfault : next.faulted = true)
    (hparts : ∑ i, next.pollerWork rows i + next.threads.monitor.pc.work +
        next.sideWork aside + next.restWork ≤
      ∑ i, s.pollerWork rows i + s.threads.monitor.pc.work +
        s.sideWork aside + s.restWork) : next.work rows aside < s.work rows aside := by
  unfold Program.work
  rw [running_of_step hstep, hfault, if_neg Bool.false_ne_true, if_pos rfl]
  omega

theorem pollerWork_congr {k : Fin n} (hthreads : next.threads.pollers k = s.threads.pollers k)
    (hhandover : next.handover.pollers k = s.handover.pollers k) :
    next.pollerWork rows k = s.pollerWork rows k := by
  unfold Program.pollerWork
  rw [hthreads, hhandover]

theorem sideWork_congr (hside : next.threads.sideWork = s.threads.sideWork) :
    next.sideWork aside = s.sideWork aside := by
  unfold Program.sideWork
  rw [hside]

theorem pollerWork_idle {i : Fin n} (hidle : (s.handover.pollers i).pc = .idle) :
    s.pollerWork rows i = (s.threads.pollers i).pc.work (limits m rows) := if_pos hidle

theorem pollerWork_busy {i : Fin n} (hbusy : (s.handover.pollers i).pc ≠ .idle) :
    s.pollerWork rows i = (s.handover.pollers i).pc.work m + 7 := if_neg hbusy

theorem sideWork_outside {t t' : Threads.State n} (houtside : t'.outside = t.outside) :
    t'.sideWork = t.sideWork :=
  Threads.sideWork_congr (congrArg Threads.Outside.handlers houtside)
    (congrArg Threads.Outside.logging houtside)

theorem sideWork_ready {t : Threads.State n} {thread : ThreadId n} (hready : t.Ready thread) :
    t.sideWork thread = 0 := by
  rw [Threads.State.sideWork, hready.1, hready.2]
  rfl

theorem restWork_congr (hhandover : next.handover = s.handover)
    (hdatabases : next.databases = s.databases) (hmain : next.main = s.main) :
    next.restWork = s.restWork := by
  unfold Program.restWork
  rw [hhandover, hdatabases, hmain]

/-! ## The pollers, the monitor and the handlers -/

theorem threads_of_step {label : Threads.Label n}
    (hstep : step config (.threads label : Label n m) s = some next) :
    Threads.step config label s.threads = some next.threads ∧ next.handover = s.handover ∧
      next.databases = s.databases ∧ next.main = s.main := by
  unfold step at hstep
  split at hstep
  · cases hstep
  · dsimp only at hstep
    split at hstep
    · cases hstep
    · obtain ⟨threads, hthreads, rfl⟩ := Option.map_eq_some_iff.mp hstep
      exact ⟨hthreads, rfl, rfl, rfl⟩

/-- A step that does some of the work need not be one that works. -/
theorem work_le (label : Label n m) (hless : next.work rows aside < s.work rows aside) :
    next.work rows aside + (if label.works then 1 else 0) ≤
      s.work rows aside + (if label.calls then 2 else 0) := by
  split <;> omega

theorem threads_work {label : Threads.Label n} (stopping : Stopping rows aside s)
    (hquiet : (.threads label : Label n m).Quiet aside)
    (hstep : step config (.threads label : Label n m) s = some next) :
    next.work rows aside + (if (.threads label : Label n m).works then 1 else 0) ≤
      s.work rows aside + (if (.threads label : Label n m).calls then 2 else 0) := by
  have hclear := clear_of_step hstep
  obtain ⟨hthreads, hhandover, hdatabases, hmain⟩ := threads_of_step hstep
  have hrest := restWork_congr hhandover hdatabases hmain
  have hpollerWork : ∀ k, next.threads.pollers k = s.threads.pollers k →
      next.pollerWork rows k = s.pollerWork rows k := fun k hk =>
    pollerWork_congr hk (congrFun (congrArg Handover.State.pollers hhandover) k)
  have hsame : next.threads.pollers = s.threads.pollers →
      ∑ k, next.pollerWork rows k = ∑ k, s.pollerWork rows k := fun hpollers =>
    Finset.sum_congr rfl fun k _ => hpollerWork k (congrFun hpollers k)
  have hgrows : ∀ {thread : ThreadId n} {less more : Nat}, thread ∈ aside →
      next.threads.sideWork thread + less ≤ s.threads.sideWork thread + more →
      (∀ other, other ≠ thread → next.threads.sideWork other = s.threads.sideWork other) →
      next.sideWork aside + less ≤ s.sideWork aside + more := fun hmember hself hothers =>
    Work.sum_shift hmember hself fun other hother => (hothers other hother).le
  cases Threads.step_work hquiet.1 stopping.stop stopping.within hthreads with
  | polls i meets hless hothers houtside =>
      have hmonitor : next.threads.monitor = s.threads.monitor :=
        congrArg Threads.Outside.monitor houtside
      have hidle := stopping.handing.idle ((Bool.not_eq_true' _).mp hclear)
      have hpollers : ∑ k, next.pollerWork rows k + 1 ≤ ∑ k, s.pollerWork rows k + 0 := by
        refine Work.sum_shift (Finset.mem_univ i) ?_ fun k hki => (hpollerWork k (hothers k hki)).le
        rw [pollerWork_idle hidle, pollerWork_idle (by rw [hhandover]; exact hidle)]
        exact hless
      refine work_le _ (work_lt hstep ?_)
      rw [hmonitor, sideWork_congr (sideWork_outside houtside), hrest]
      omega
  | fails i meets hfault hpollers houtside =>
      have hmonitor : next.threads.monitor = s.threads.monitor :=
        congrArg Threads.Outside.monitor houtside
      refine work_le _ (work_lt_of_fault hstep ?_ ?_)
      · unfold Program.faulted
        rw [Option.isSome_iff_ne_none.mpr hfault, Bool.true_or]
      · rw [hsame hpollers, hmonitor, sideWork_congr (sideWork_outside houtside), hrest]
  | monitors hless hpollers hside =>
      refine work_le _ (work_lt hstep ?_)
      rw [hsame hpollers, sideWork_congr hside, hrest]
      omega
  | aside label thread hless hothers hpollers hmonitor =>
      have hmember : thread ∈ aside := by
        by_contra hnot
        rw [sideWork_ready (stopping.ready thread hnot)] at hless
        exact Nat.not_lt_zero _ hless
      have hside := @hgrows thread 1 0 hmember hless hothers
      refine work_le _ (work_lt hstep ?_)
      rw [hsame hpollers, hmonitor, hrest]
      omega
  | calls thread hmore hothers hpollers hmonitor =>
      have hside := @hgrows thread 0 2 (hquiet.2 thread rfl) hmore.le hothers
      have hfault : next.threads.fault = s.threads.fault := by
        cases (Threads.step_effect hthreads).2 with
        | calls _ _ _ hnext => rw [hnext]
      unfold Program.work Program.faulted
      rw [hsame hpollers, hmonitor, hrest, hfault, hhandover]
      rw [Label.works, Label.calls, Label.caller, Option.isSome_some, if_neg Bool.false_ne_true,
        if_pos rfl]
      omega
  | ticks ms hpollers hmonitor hside =>
      have hfault : next.threads.fault = s.threads.fault := by
        cases (Threads.step_effect hthreads).2 with
        | ticks _ hnext => rw [hnext]
      unfold Program.work Program.faulted
      rw [hsame hpollers, hmonitor, sideWork_congr hside, hrest, hfault, hhandover]
      exact Nat.le_refl _

/-! ## `process_queries` -/

/-- What a step of `process_queries` leaves alone. -/
structure OnlyQueries (i : Fin n) (s next : Program n m) : Prop where
  threads : ∀ k, k ≠ i → next.threads.pollers k = s.threads.pollers k
  handover : ∀ k, k ≠ i → next.handover.pollers k = s.handover.pollers k
  monitor : next.threads.monitor = s.threads.monitor
  side : next.threads.sideWork = s.threads.sideWork
  drains : next.handover.databases = s.handover.databases
  databases : next.databases = s.databases
  main : next.main = s.main

/-- The poller pays for the work that it makes for the database threads. -/
theorem OnlyQueries.work {i : Fin n} (only : OnlyQueries i s next) {label : Label n m}
    (hstep : step config label s = some next)
    (hwork : queueWork next.handover.memory s.handover.databases + next.pollerWork rows i <
      queueWork s.handover.memory s.handover.databases + s.pollerWork rows i) :
    next.work rows aside < s.work rows aside := by
  have hpollers : ∑ k, next.pollerWork rows k + s.pollerWork rows i ≤
      ∑ k, s.pollerWork rows k + next.pollerWork rows i :=
    Work.sum_shift (Finset.mem_univ i) (Nat.add_comm _ _).le fun k hki =>
      (pollerWork_congr (only.threads k hki) (only.handover k hki)).le
  refine work_lt hstep ?_
  unfold Program.restWork
  rw [only.monitor, sideWork_congr only.side, only.drains, only.databases, only.main]
  omega

/-- A call has so much to do at most. -/
theorem begin_work {held : List Poller.Clinsert} (hroom : held.length ≤ Poller.maxTables)
    {memory memory' : Handover.Memory n m} {queries : Handover.Queries}
    (hbegin : Handover.beginQueries memory (Poller.slots held) = .ok (memory', queries)) :
    memory'.queue = memory.queue ∧ queries.pc ≠ .idle ∧
      queries.pc.work m < Poller.maxTables * insertWork m + 4 := by
  obtain ⟨count, hcount, hrest⟩ := Outcome.bind_eq_ok.mp hbegin
  cases hrest
  refine ⟨rfl, nofun, ?_⟩
  have hwork : held.length * insertWork m ≤ Poller.maxTables * insertWork m :=
    Nat.mul_le_mul_right _ hroom
  simp only [Handover.QueriesPc.work, List.length_range', Poller.taken_slots hroom hcount]
  omega

theorem queries_work {i : Fin n} {garbage : UInt32} (stopping : Stopping rows aside s)
    (hstep : step config (.queries i garbage : Label n m) s = some next) :
    next.work rows aside < s.work rows aside := by
  have hmade := hstep
  unfold step at hmade
  split at hmade
  · cases hmade
  · dsimp only at hmade
    split at hmade
    · obtain ⟨inserts, hqueueing, hqueries⟩ := Option.bind_eq_some_iff.mp hmade
      obtain ⟨host, round, hpc⟩ := queueing_eq_some hqueueing
      unfold Program.queriesStep at hqueries
      split at hqueries
      · rename_i hidle
        obtain ⟨handover, hbegins, rfl⟩ := Option.map_eq_some_iff.mp hqueries
        have hbefore : s.pollerWork rows i = Poller.maxTables * insertWork m + 4 + 7 := by
          rw [pollerWork_idle hidle, hpc]
          rfl
        cases Handover.step_effect hbegins with
        | begins _ _ memory queries _ hbegin hnext =>
            subst hnext
            obtain ⟨held, hslots, hroom⟩ := stopping.handing.packed i
            rw [hpc] at hslots
            change inserts = Poller.slots held at hslots
            rw [hslots] at hbegin
            obtain ⟨hqueue, hbusy, hwork⟩ := begin_work hroom hbegin
            refine OnlyQueries.work ⟨fun _ _ => rfl, fun k hki => Function.update_of_ne hki _ _,
              rfl, rfl, rfl, rfl, rfl⟩ hstep ?_
            rw [hbefore, Handover.queueWork_congr hqueue, pollerWork_busy]
            · dsimp only
              rw [Function.update_self]
              omega
            · dsimp only
              rw [Function.update_self]
              exact hbusy
        | beginFails _ _ fault hnext =>
            subst hnext
            exact work_lt_of_fault hstep (Bool.or_true _) (Nat.le_refl _)
      · rename_i depth hdepth
        obtain ⟨handover, hpolls, rfl⟩ := Option.map_eq_some_iff.mp hqueries
        rw [Program.finishQueries, hpc] at hpolls hstep ⊢
        dsimp only at hpolls hstep ⊢
        obtain ⟨memory, queries, hcall, hnext⟩ := handoverStep_polls hpolls
        subst hnext
        have hidle := (queriesStep_idle hcall).mpr ⟨depth, hdepth⟩
        have hwork := Handover.queriesStep_work stopping.orderly.accounted hcall
        have hbusy : (s.handover.pollers i).pc ≠ .idle := by
          intro hidle
          cases hdepth.symm.trans hidle
        refine OnlyQueries.work ⟨fun k hki => Function.update_of_ne hki _ _,
          fun k hki => Function.update_of_ne hki _ _, rfl, rfl, rfl, rfl, rfl⟩ hstep ?_
        rw [pollerWork_busy hbusy, pollerWork_idle]
        · dsimp only
          rw [Threads.goto_pc]
          simp only [Threads.PollerPc.work, Threads.HostStage.work]
          omega
        · dsimp only
          rw [Function.update_self]
          exact hidle
      · rename_i hbusy hrest
        obtain ⟨handover, hpolls, rfl⟩ := Option.map_eq_some_iff.mp hqueries
        obtain ⟨memory, queries, hcall, hnext⟩ := handoverStep_polls hpolls
        subst hnext
        have hwork := Handover.queriesStep_work stopping.orderly.accounted hcall
        refine OnlyQueries.work ⟨fun _ _ => rfl, fun k hki => Function.update_of_ne hki _ _,
          rfl, rfl, rfl, rfl, rfl⟩ hstep ?_
        rw [pollerWork_busy hbusy, pollerWork_busy]
        · dsimp only
          rw [Function.update_self]
          omega
        · dsimp only
          rw [Function.update_self]
          intro hidle
          obtain ⟨depth, hdepth⟩ := (queriesStep_idle hcall).mp hidle
          exact hrest depth hdepth
    · cases hmade

/-! ## The database threads and the main thread -/

/-- A database thread does some of its work, at the queue or outside. -/
theorem database_work_lt {label : Label n m} (hstep : step config label s = some next)
    (hthreads : next.threads = s.threads) (hpollers : next.handover.pollers = s.handover.pollers)
    (hmain : next.main = s.main)
    (hwork : ∑ j, (next.databases j).pc.work +
        queueWork next.handover.memory next.handover.databases <
      ∑ j, (s.databases j).pc.work + queueWork s.handover.memory s.handover.databases) :
    next.work rows aside < s.work rows aside := by
  have hsame : ∑ k, next.pollerWork rows k = ∑ k, s.pollerWork rows k :=
    Finset.sum_congr rfl fun k _ => pollerWork_congr (by rw [hthreads]) (by rw [hpollers])
  have hhandlers : next.sideWork aside = s.sideWork aside :=
    sideWork_congr (by rw [hthreads])
  refine work_lt hstep ?_
  unfold Program.restWork
  rw [hsame, hthreads, hhandlers, hmain]
  omega

/-- The thread goes to another program counter of `database_run`. -/
theorem setDatabase_work {j : Fin m} {thread : DatabaseThread} {less more : Nat}
    (hwork : thread.pc.work + less ≤ (s.databases j).pc.work + more) :
    ∑ k, ((s.setDatabase j thread).databases k).pc.work + less ≤
      ∑ k, (s.databases k).pc.work + more := by
  refine Work.sum_shift (Finset.mem_univ j) ?_ fun k hkj => by rw [setDatabase_of_ne hkj]
  rw [setDatabase_self]
  exact hwork

/-- A step of `database_run` outside of the functions that drain the queue. -/
theorem setDatabase_work_lt {j : Fin m} {thread : DatabaseThread} {label : Label n m}
    (hstep : step config label s = some (s.setDatabase j thread))
    (hwork : thread.pc.work < (s.databases j).pc.work) :
    (s.setDatabase j thread).work rows aside < s.work rows aside := by
  have hdatabases : ∑ k, ((s.setDatabase j thread).databases k).pc.work + 1 ≤
      ∑ k, (s.databases k).pc.work + 0 := setDatabase_work hwork
  exact database_work_lt hstep rfl rfl rfl (Nat.add_lt_add_right hdatabases _)

theorem handoverStep_drains {h h' : Handover.State n m} {j : Fin m} {succeeds : Bool}
    (hstep : Handover.step config (.database j succeeds) h = some h') :
    ∃ memory draining,
      Handover.drainStep config j succeeds h.memory (h.databases j) = some (memory, draining) ∧
      h' = { h with memory := memory, databases := Function.update h.databases j draining } := by
  unfold Handover.step at hstep
  split at hstep
  · cases hstep
  · obtain ⟨stepped, hdrain, rfl⟩ := Option.map_eq_some_iff.mp hstep
    exact ⟨stepped.1, stepped.2, hdrain, rfl⟩

/-- A step of a database thread in a function that drains the queue. -/
theorem drain_work {j : Fin m} {answers : Answers} {handover : Handover.State n m}
    (stopping : Stopping rows aside s)
    (hdrain : Handover.step config (.database j answers.succeeds) s.handover = some handover)
    {label : Label n m}
    (hstep : step config label s = some { s with handover := handover }) :
    Program.work rows aside { s with handover := handover } < s.work rows aside := by
  obtain ⟨memory, draining, hmade, rfl⟩ := handoverStep_drains hdrain
  rcases Handover.drainStep_work stopping.orderly.accounted.stores hmade with
    hless | ⟨hfault, hqueue, rfl⟩
  · exact database_work_lt hstep rfl rfl rfl (Nat.add_lt_add_left hless _)
  · refine work_lt_of_fault hstep ?_ ?_
    · unfold Program.faulted
      dsimp only
      rw [Option.isSome_iff_ne_none.mpr hfault, Bool.or_true]
    · refine Nat.add_le_add_left ?_ _
      unfold Program.restWork
      dsimp only
      rw [Function.update_eq_self, Handover.queueWork_congr hqueue]

theorem database_work {j : Fin m} {answers : Answers} (stopping : Stopping rows aside s)
    (hstep : step config (.database j answers : Label n m) s = some next) :
    next.work rows aside < s.work rows aside := by
  have hmade := hstep
  unfold step at hmade
  split at hmade
  · cases hmade
  · dsimp only at hmade
    split at hmade
    · unfold Program.databaseStep at hmade
      cases hpc : (s.databases j).pc with
      | loopTest =>
          rw [hpc, Program.databaseStepAt, stopping.stop, if_pos rfl] at hmade
          cases hmade
          exact setDatabase_work_lt hstep (by rw [hpc]; exact Nat.lt_succ_self 1)
      | connect =>
          rw [hpc] at hmade
          cases hmade
          split at hstep
          · rename_i hconnects
            rw [if_pos hconnects]
            exact setDatabase_work_lt hstep (by rw [hpc]; exact Nat.lt_succ_self 11)
          · rename_i hconnects
            rw [if_neg hconnects]
            exact setDatabase_work_lt hstep (by rw [hpc]; exact (by decide : 3 < 12))
      | ping =>
          rw [hpc] at hmade
          cases hmade
          refine setDatabase_work_lt hstep ?_
          rw [hpc]
          dsimp only
          split <;> simp [DatabasePc.work]
      | call =>
          rw [hpc] at hmade
          obtain ⟨handover, hdrain, rfl⟩ := Option.map_eq_some_iff.mp hmade
          cases Handover.step_effect hdrain with
          | drains _ _ hidle hnext =>
              subst hnext
              have hdatabases : ∑ k, ((s.databaseGoto j .draining).databases k).pc.work + 6 ≤
                  ∑ k, (s.databases k).pc.work + 0 := setDatabase_work (by rw [hpc]; rfl)
              have hqueue : queueWork s.handover.memory (Function.update s.handover.databases j
                  (.begin config.useDb)) + 0 ≤
                  queueWork s.handover.memory s.handover.databases + 5 := by
                refine Handover.queueWork_update rfl ?_
                have hbegin : (Handover.Draining.begin config.useDb).pc.work
                    s.handover.memory.filled ≤ 2 + 3 := (Handover.work_filled _ _).2
                exact Nat.le_trans hbegin (Nat.le_add_left _ _)
              refine database_work_lt hstep rfl rfl rfl ?_
              change ∑ k, ((s.databaseGoto j .draining).databases k).pc.work +
                queueWork s.handover.memory (Function.update s.handover.databases j
                  (.begin config.useDb)) < _
              omega
      | draining =>
          rw [hpc, Program.databaseStepAt] at hmade
          split at hmade
          · cases hmade
            exact setDatabase_work_lt hstep (by rw [hpc]; exact Nat.lt_succ_self 3)
          · obtain ⟨handover, hdrain, rfl⟩ := Option.map_eq_some_iff.mp hmade
            exact drain_work stopping hdrain hstep
      | sleep =>
          rw [hpc] at hmade
          cases hmade
          exact setDatabase_work_lt hstep (by rw [hpc]; exact Nat.lt_succ_self 2)
      | closing =>
          rw [hpc] at hmade
          cases hmade
          exact setDatabase_work_lt hstep (by rw [hpc]; exact Nat.lt_succ_self 0)
      | returned =>
          rw [hpc] at hmade
          cases hmade
    · cases hmade

theorem main_work (hstep : step config (.main : Label n m) s = some next) :
    next.work rows aside < s.work rows aside := by
  have joins : ∀ main : MainPc, main.work < s.main.work → next = { s with main := main } →
      next.work rows aside < s.work rows aside := by
    intro main hless hnext
    subst hnext
    exact work_lt hstep (Nat.add_lt_add_left (Nat.add_lt_add_left hless _) _)
  have hmade := hstep
  unfold step at hmade
  split at hmade
  · cases hmade
  · dsimp only at hmade
    split at hmade
    · unfold Program.mainStep at hmade
      split at hmade
      · rename_i hmain
        split at hmade
        · exact joins .joinPollers (by rw [hmain]; exact Nat.lt_succ_self 2)
            (Option.some.inj hmade).symm
        · cases hmade
      · rename_i hmain
        split at hmade
        · exact joins .joinMonitor (by rw [hmain]; exact Nat.lt_succ_self 1)
            (Option.some.inj hmade).symm
        · cases hmade
      · rename_i hmain
        split at hmade
        · exact joins .freeQueue (by rw [hmain]; exact Nat.lt_succ_self 0)
            (Option.some.inj hmade).symm
        · cases hmade
      · cases hmade
    · cases hmade

/-- Every step of a thread does some of the work that is left, and a call of
`cllog` makes two steps of it. -/
theorem step_work {label : Label n m} (stopping : Stopping rows aside s)
    (hquiet : label.Quiet aside) (hstep : step config label s = some next) :
    next.work rows aside + (if label.works then 1 else 0) ≤
      s.work rows aside + (if label.calls then 2 else 0) := by
  cases label with
  | threads label => exact threads_work stopping hquiet hstep
  | queries i garbage => exact work_le _ (queries_work stopping hstep)
  | database j answers => exact work_le _ (database_work stopping hstep)
  | main => exact work_le _ (main_work hstep)

/-! ## What stays -/

/-- A thread that no signal reaches and that does not call `cllog` stays ready. -/
theorem ready_step {thread : ThreadId n} {label : Threads.Label n} {t t' : Threads.State n}
    (hquiet : label.isSignal = false) (hcalls : label ≠ .callsCllog thread)
    (hstep : Threads.step config label t = some t') (hready : t.Ready thread) :
    t'.Ready thread := by
  have hidle : t'.handlers thread = [] := by
    refine Threads.unsignalled_keeps thread label t t' ?_ hready.1 hstep
    rintro signal rfl
    cases hquiet
  refine ⟨hidle, ?_⟩
  obtain ⟨-, effect⟩ := Threads.step_effect hstep
  cases effect with
  | ticks _ hnext =>
      subst hnext
      exact hready.2
  | polls i meets _ _ _ houtside =>
      exact (congrFun (congrArg Threads.Outside.logging houtside) thread).trans hready.2
  | monitors _ _ effect => exact (congrFun effect.logging thread).trans hready.2
  | calls caller _ _ hnext =>
      subst hnext
      have hother : thread ≠ caller := fun hsame => hcalls (hsame ▸ rfl)
      exact (Function.update_of_ne hother _ _).trans hready.2
  | logs writer hlog _ _ _ =>
      obtain ⟨-, pc, hpc, move⟩ := Threads.cllogStep_move hlog
      have hother : thread ≠ writer := by
        rintro rfl
        rw [hready.2] at hpc
        subst hpc
        cases move
      cases move with
      | locks | unlocks => exact (Function.update_of_ne hother _ _).trans hready.2
  | handles _ _ effect => exact (congrFun effect.logging thread).trans hready.2
  | signals => cases hquiet

theorem Stopping.step {label : Label n m} (stopping : Stopping rows aside s)
    (hquiet : label.Quiet aside) (hstep : step config label s = some next) :
    Stopping rows aside next := by
  have orderly := stopping.orderly.step hstep
  have handing := (step_passes stopping.handing hstep).handing
  cases step_threads hstep with
  | steps label hthreads =>
      refine ⟨Threads.step_stop hthreads stopping.stop, stopping.within.step hthreads,
        fun thread hthread => ?_, orderly, handing⟩
      refine ready_step hquiet.1 ?_ hthreads (stopping.ready thread hthread)
      rintro rfl
      exact hthread (hquiet.2 thread rfl)
  | queued i garbage host round inserts totals hpc hthreads =>
      refine ⟨?_, ?_, ?_, orderly, handing⟩
      · rw [hthreads]
        exact stopping.stop
      · rw [hthreads]
        exact stopping.within
      · rw [hthreads]
        exact stopping.ready
  | queues _ _ hthreads | database _ _ hthreads | main hthreads =>
      refine ⟨?_, ?_, ?_, orderly, handing⟩
      · rw [hthreads]
        exact stopping.stop
      · rw [hthreads]
        exact stopping.within
      · rw [hthreads]
        exact stopping.ready

/-- Threads that are ready have nothing to do. -/
theorem Stopping.work_mono {aside' : Finset (ThreadId n)} (stopping : Stopping rows aside s)
    (hsubset : aside ⊆ aside') : s.work rows aside' = s.work rows aside := by
  have hside : s.sideWork aside' = s.sideWork aside :=
    (Finset.sum_subset hsubset fun thread _ hthread =>
      sideWork_ready (stopping.ready thread hthread)).symm
  unfold Program.work
  rw [hside]

theorem Stopping.mono {aside' : Finset (ThreadId n)} (stopping : Stopping rows aside s)
    (hsubset : aside ⊆ aside') : Stopping rows aside' s :=
  ⟨stopping.stop, stopping.within,
    fun thread hthread => stopping.ready thread fun hmember => hthread (hsubset hmember),
    stopping.orderly, stopping.handing⟩

end Steps

end ClusteredPoller.RunThreads
