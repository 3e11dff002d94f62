import ClusteredPoller.Handover.Accounts
import ClusteredPoller.RunThreads.Program

/-!
# The steps of the whole program

What a step does with the queue, the database threads and the main thread.
-/

namespace ClusteredPoller.RunThreads

open Library

/-- Behind the loop of `database_run`. -/
def DatabasePc.left : DatabasePc → Bool
  | .closing | .returned => true
  | _ => false

section Effects

variable {n m : Nat} {config : Rtgconf} {s next : Program n m}

inductive StepEffect (config : Rtgconf) (s next : Program n m) : Label n m → Prop where
  | threads (label : Threads.Label n) (threads : Threads.State n)
      (hnext : next = { s with threads := threads }) : StepEffect config s next (.threads label)
  | queries (i : Fin n) (garbage : UInt32) (threads : Threads.State n)
      (handover : Handover.State n m)
      (hstep : (∃ inserts, Handover.step config (.begin i inserts) s.handover = some handover) ∨
        Handover.step config (.poller i garbage) s.handover = some handover)
      (hnext : next = { s with threads := threads, handover := handover }) :
      StepEffect config s next (.queries i garbage)
  /-- A database thread finds the stop flag set. -/
  | leaves (j : Fin m) (answers : Answers) (hpc : (s.databases j).pc = .loopTest)
      (hstop : s.threads.threadStopRequested = true) (hnext : next = s.databaseGoto j .closing) :
      StepEffect config s next (.database j answers)
  | calls (j : Fin m) (answers : Answers) (handover : Handover.State n m)
      (hpc : (s.databases j).pc = .call)
      (hstep : Handover.step config (.drain j config.useDb) s.handover = some handover)
      (hnext : next = { s.databaseGoto j .draining with handover := handover }) :
      StepEffect config s next (.database j answers)
  | drains (j : Fin m) (answers : Answers) (handover : Handover.State n m)
      (hpc : (s.databases j).pc = .draining)
      (hstep : Handover.step config (.database j answers.succeeds) s.handover = some handover)
      (hnext : next = { s with handover := handover }) :
      StepEffect config s next (.database j answers)
  | closes (j : Fin m) (answers : Answers) (hpc : (s.databases j).pc = .closing)
      (hnext : next = s.databaseGoto j .returned) : StepEffect config s next (.database j answers)
  /-- A step inside the loop, outside the two functions. -/
  | moves (j : Fin m) (answers : Answers) (thread : DatabaseThread)
      (hpc : (s.databases j).pc.left = false)
      (hidle : (s.databases j).pc = .draining → (s.handover.databases j).pc = .idle)
      (hrunning : (s.databases j).pc = .loopTest → s.threads.threadStopRequested = false)
      (hthread : thread.pc.left = false ∧ thread.pc ≠ .draining)
      (hnext : next = s.setDatabase j thread) : StepEffect config s next (.database j answers)
  | joins (main : MainPc)
      (hreturned : s.main = .joinDatabases → ∀ j, (s.databases j).pc = .returned)
      (hmain : main ≠ .joinDatabases) (hnext : next = { s with main := main }) :
      StepEffect config s next .main

theorem queriesStep_effect {i : Fin n} {garbage : UInt32} {inserts : Poller.Inserts}
    (hstep : s.queriesStep config i garbage inserts = some next) :
    StepEffect config s next (.queries i garbage) := by
  unfold Program.queriesStep at hstep
  split at hstep
  · obtain ⟨handover, hhandover, rfl⟩ := Option.map_eq_some_iff.mp hstep
    exact .queries i garbage s.threads handover (Or.inl ⟨inserts, hhandover⟩) rfl
  · rename_i depth _
    obtain ⟨handover, hhandover, rfl⟩ := Option.map_eq_some_iff.mp hstep
    unfold Program.finishQueries at hhandover ⊢
    split at hhandover
    · exact .queries i garbage _ handover (Or.inr hhandover) rfl
    · exact .queries i garbage s.threads handover (Or.inr hhandover) rfl
  · obtain ⟨handover, hhandover, rfl⟩ := Option.map_eq_some_iff.mp hstep
    exact .queries i garbage s.threads handover (Or.inr hhandover) rfl

theorem databaseStep_effect {j : Fin m} {answers : Answers}
    (hstep : s.databaseStep config j answers = some next) :
    StepEffect config s next (.database j answers) := by
  unfold Program.databaseStep at hstep
  have moves : ∀ thread : DatabaseThread, (s.databases j).pc.left = false →
      (s.databases j).pc ≠ .draining →
      ((s.databases j).pc = .loopTest → s.threads.threadStopRequested = false) →
      thread.pc.left = false ∧ thread.pc ≠ .draining →
      StepEffect config s (s.setDatabase j thread) (.database j answers) :=
    fun thread hloop hpc hrunning hthread =>
      .moves j answers thread hloop (fun hdraining => absurd hdraining hpc) hrunning hthread rfl
  cases hpc : (s.databases j).pc with
  | loopTest =>
      rw [hpc] at hstep
      cases hstep
      split
      · rename_i hstop
        exact .leaves j answers hpc hstop rfl
      · rename_i hstop
        refine moves _ (by rw [hpc]; rfl) (by rw [hpc]; nofun)
          (fun _ => Bool.eq_false_of_not_eq_true hstop) ?_
        dsimp only
        split
        · exact ⟨rfl, nofun⟩
        · split
          · exact ⟨rfl, nofun⟩
          · exact ⟨rfl, nofun⟩
  | connect =>
      rw [hpc] at hstep
      cases hstep
      split
      · exact moves ⟨.ping, true⟩ (by rw [hpc]; rfl) (by rw [hpc]; nofun) (by rw [hpc]; nofun)
          ⟨rfl, nofun⟩
      · exact moves { s.databases j with pc := .sleep } (by rw [hpc]; rfl) (by rw [hpc]; nofun)
          (by rw [hpc]; nofun) ⟨rfl, nofun⟩
  | ping =>
      rw [hpc] at hstep
      cases hstep
      refine moves _ (by rw [hpc]; rfl) (by rw [hpc]; nofun) (by rw [hpc]; nofun) ?_
      dsimp only
      split
      · exact ⟨rfl, nofun⟩
      · exact ⟨rfl, nofun⟩
  | call =>
      rw [hpc] at hstep
      obtain ⟨handover, hhandover, rfl⟩ := Option.map_eq_some_iff.mp hstep
      exact .calls j answers handover hpc hhandover rfl
  | draining =>
      rw [hpc, Program.databaseStepAt] at hstep
      split at hstep
      · rename_i hidle
        cases hstep
        exact .moves j answers { s.databases j with pc := .sleep } (by rw [hpc]; rfl)
          (fun _ => hidle) (by rw [hpc]; nofun) ⟨rfl, nofun⟩ rfl
      · obtain ⟨handover, hhandover, rfl⟩ := Option.map_eq_some_iff.mp hstep
        exact .drains j answers handover hpc hhandover rfl
  | sleep =>
      rw [hpc] at hstep
      cases hstep
      exact moves { s.databases j with pc := .loopTest } (by rw [hpc]; rfl) (by rw [hpc]; nofun)
        (by rw [hpc]; nofun) ⟨rfl, nofun⟩
  | closing =>
      rw [hpc] at hstep
      cases hstep
      exact .closes j answers hpc rfl
  | returned =>
      rw [hpc] at hstep
      cases hstep

theorem mainStep_effect (hstep : s.mainStep = some next) : StepEffect config s next .main := by
  unfold Program.mainStep at hstep
  split at hstep
  · split at hstep
    · rename_i hreturned
      cases hstep
      exact .joins .joinPollers (fun _ => hreturned) nofun rfl
    · cases hstep
  · rename_i hmain
    split at hstep
    · cases hstep
      exact .joins .joinMonitor (fun hfirst => nomatch hmain.symm.trans hfirst) nofun rfl
    · cases hstep
  · rename_i hmain
    split at hstep
    · cases hstep
      exact .joins .freeQueue (fun hfirst => nomatch hmain.symm.trans hfirst) nofun rfl
    · cases hstep
  · cases hstep

theorem step_effect {label : Label n m} (hstep : step config label s = some next) :
    StepEffect config s next label := by
  unfold step at hstep
  split at hstep
  · cases hstep
  · cases label with
    | threads label =>
        dsimp only at hstep
        split at hstep
        · cases hstep
        · obtain ⟨threads, -, rfl⟩ := Option.map_eq_some_iff.mp hstep
          exact .threads label threads rfl
    | queries i garbage =>
        dsimp only at hstep
        split at hstep
        · obtain ⟨inserts, -, hqueries⟩ := Option.bind_eq_some_iff.mp hstep
          exact queriesStep_effect hqueries
        · cases hstep
    | database j answers =>
        dsimp only at hstep
        split at hstep
        · exact databaseStep_effect hstep
        · cases hstep
    | main =>
        dsimp only at hstep
        split at hstep
        · exact mainStep_effect hstep
        · cases hstep

/-! ## The queue in the program -/

/-- Every step of the program is a step of the threads that share the queue, or
leaves them alone. -/
theorem step_handover {label : Label n m} (hstep : step config label s = some next) :
    next.handover = s.handover ∨
      ∃ shared, Handover.step config shared s.handover = some next.handover := by
  cases step_effect hstep with
  | threads label threads hnext =>
      subst hnext
      exact Or.inl rfl
  | queries i garbage threads handover hqueries hnext =>
      subst hnext
      rcases hqueries with ⟨inserts, hbegin⟩ | hpoller
      · exact Or.inr ⟨_, hbegin⟩
      · exact Or.inr ⟨_, hpoller⟩
  | leaves j answers _ _ hnext =>
      subst hnext
      exact Or.inl rfl
  | calls j answers handover _ hdrain hnext =>
      subst hnext
      exact Or.inr ⟨_, hdrain⟩
  | drains j answers handover _ hdatabase hnext =>
      subst hnext
      exact Or.inr ⟨_, hdatabase⟩
  | closes j answers _ hnext =>
      subst hnext
      exact Or.inl rfl
  | moves j answers thread _ _ _ _ hnext =>
      subst hnext
      exact Or.inl rfl
  | joins main _ _ hnext =>
      subst hnext
      exact Or.inl rfl

/-- So the inserts are accounted for in the whole program. -/
theorem accounted_keeps (config : Rtgconf) :
    Transition.Keeps (step config) (fun _ _ => True)
      fun s : Program n m => Handover.Accounted s.handover := by
  intro label s next _ accounted hstep
  rcases step_handover hstep with hsame | ⟨shared, hshared⟩
  · rw [hsame]
    exact accounted
  · exact accounted.step hshared

end Effects

end ClusteredPoller.RunThreads
