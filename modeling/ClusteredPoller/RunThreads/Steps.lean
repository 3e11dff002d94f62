import ClusteredPoller.RunThreads.Effects
import ClusteredPoller.Threads.Effects

/-!
# The pollers and the monitor in the program

What a step of the whole program does to the threads that poll.
-/

namespace ClusteredPoller.RunThreads

open Threads (QueryTotals)

section Steps

variable {n m : Nat} {config : Rtgconf} {s next : Program n m}

/-- Either a step of these threads, or a poller whose inserts are queued goes on
to the statistics, or nothing. -/
inductive ThreadsEffect (config : Rtgconf) (s next : Program n m) : Label n m → Prop where
  | steps (label : Threads.Label n)
      (hstep : Threads.step config label s.threads = some next.threads)
      (hdatabases : next.databases = s.databases) (hmain : next.main = s.main) :
      ThreadsEffect config s next (.threads label)
  | queued (i : Fin n) (garbage : UInt32) (host round : Nat) (inserts : Poller.Inserts)
      (totals : QueryTotals)
      (hpc : (s.threads.pollers i).pc = .processing host round (.queueInserts inserts))
      (hthreads : next.threads = s.threads.goto i (.processing host round (.statsLock totals)))
      (hdatabases : next.databases = s.databases) (hmain : next.main = s.main) :
      ThreadsEffect config s next (.queries i garbage)
  | queues (i : Fin n) (garbage : UInt32) (hthreads : next.threads = s.threads)
      (hdatabases : next.databases = s.databases) (hmain : next.main = s.main) :
      ThreadsEffect config s next (.queries i garbage)
  | database (j : Fin m) (answers : Answers) (hthreads : next.threads = s.threads)
      (hmain : next.main = s.main) : ThreadsEffect config s next (.database j answers)
  | main (hthreads : next.threads = s.threads) (hdatabases : next.databases = s.databases) :
      ThreadsEffect config s next .main

theorem queueing_eq_some {i : Fin n} {inserts : Poller.Inserts}
    (hqueueing : s.queueing i = some inserts) :
    ∃ host round, (s.threads.pollers i).pc = .processing host round (.queueInserts inserts) := by
  unfold Program.queueing at hqueueing
  split at hqueueing
  · rename_i host round _ hpc
    cases hqueueing
    exact ⟨host, round, hpc⟩
  · cases hqueueing

theorem queriesStep_threads {i : Fin n} {garbage : UInt32} {inserts : Poller.Inserts}
    (hqueueing : s.queueing i = some inserts)
    (hstep : s.queriesStep config i garbage inserts = some next) :
    ThreadsEffect config s next (.queries i garbage) := by
  unfold Program.queriesStep at hstep
  split at hstep
  · obtain ⟨handover, -, rfl⟩ := Option.map_eq_some_iff.mp hstep
    exact .queues i garbage rfl rfl rfl
  · rename_i depth _
    obtain ⟨handover, -, rfl⟩ := Option.map_eq_some_iff.mp hstep
    obtain ⟨host, round, hpc⟩ := queueing_eq_some hqueueing
    rw [Program.finishQueries, hpc]
    exact .queued i garbage host round inserts _ hpc rfl rfl rfl
  · obtain ⟨handover, -, rfl⟩ := Option.map_eq_some_iff.mp hstep
    exact .queues i garbage rfl rfl rfl

theorem step_threads {label : Label n m} (hstep : step config label s = some next) :
    ThreadsEffect config s next label := by
  have heffect := step_effect hstep
  unfold step at hstep
  split at hstep
  · cases hstep
  · cases label with
    | threads label =>
        dsimp only at hstep
        split at hstep
        · cases hstep
        · obtain ⟨threads, hthreads, rfl⟩ := Option.map_eq_some_iff.mp hstep
          exact .steps label hthreads rfl rfl
    | queries i garbage =>
        dsimp only at hstep
        split at hstep
        · obtain ⟨inserts, hqueueing, hqueries⟩ := Option.bind_eq_some_iff.mp hstep
          exact queriesStep_threads hqueueing hqueries
        · cases hstep
    | database j answers =>
        cases heffect with
        | leaves _ _ _ _ hnext | calls _ _ _ _ _ hnext | drains _ _ _ _ _ hnext
        | closes _ _ _ hnext | moves _ _ _ _ _ _ _ hnext =>
            subst hnext
            exact .database j answers rfl rfl
    | main =>
        cases heffect with
        | joins main _ _ hnext =>
            subst hnext
            exact .main rfl rfl

end Steps

end ClusteredPoller.RunThreads
