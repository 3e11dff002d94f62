import ClusteredPoller.Library.Observation
import ClusteredPoller.Process.Main
import ClusteredPoller.RunThreads.Steps
import ClusteredPoller.Targets.Reload

/-!
# Stop requests between two runs

`sigterm_handler` sets both stop flags.  The main thread tests the second one
at the top of its loop and clears the first one at the beginning of
`run_threads`, so a request that is noted in between stops nobody: the threads
that are created then poll on until the next signal.  All other requests stop
the threads.
-/

namespace ClusteredPoller.Process

open Library Library.Transition Poller Targets Threads

section Steps

variable {settings : Settings}

end Steps

/-! ## Requests that stop the threads -/

section FullStops

variable {n m : Nat} {config : Rtgconf}

/-- A full stop that is requested, or that a handler is about to request, stops
the threads, too. -/
def StopsThreads (threadStop fullStop : Bool) (pending : Prop) : Prop :=
  fullStop = true ∨ pending → threadStop = true

theorem StopsThreads.mono {threadStop fullStop fullStop' : Bool} {pending pending' : Prop}
    (stops : StopsThreads threadStop fullStop pending)
    (hfull : fullStop' = true → fullStop = true ∨ pending) (hpending : pending' → pending) :
    StopsThreads threadStop fullStop' pending' :=
  fun hrequested => stops (hrequested.elim hfull fun hlater => Or.inr (hpending hlater))

end FullStops

/-! ## Without a further signal -/

def Label.isSignal : Label → Bool
  | .signal _ => true
  | .threads (.threads (.signal _ _)) => true
  | _ => false

/-- No thread has been told to stop, and none has left its loop. -/
structure Unstopped {n m : Nat} (program : RunThreads.Program n m) : Prop where
  stop : program.threads.threadStopRequested = false
  quiet : ∀ thread, program.threads.handlers thread = []
  inLoop : ∀ j, (program.databases j).pc.left = false
  main : program.main = .joinDatabases

section Unstopped

variable {n m : Nat} {config : Rtgconf} {program next : RunThreads.Program n m}

theorem threads_unstopped {label : Threads.Label n} {s t : Threads.State n}
    (hstep : Threads.step config label s = some t) (hstop : s.threadStopRequested = false)
    (hquiet : ∀ thread, s.handlers thread = [])
    (hsignal : (Label.threads (.threads label : RunThreads.Label n m)).isSignal = false) :
    t.threadStopRequested = false ∧ ∀ thread, t.handlers thread = [] := by
  obtain ⟨-, effect⟩ := Threads.step_effect hstep
  cases effect with
  | ticks _ hnext | calls _ _ _ hnext | logs _ _ _ _ hnext =>
      subst hnext
      exact ⟨hstop, hquiet⟩
  | polls i meets _ _ _ houtside =>
      have hflag : t.threadStopRequested = s.threadStopRequested :=
        congrArg Outside.threadStopRequested houtside
      have hhandlers : t.handlers = s.handlers := congrArg Outside.handlers houtside
      rw [hflag, hhandlers]
      exact ⟨hstop, hquiet⟩
  | monitors _ _ effect =>
      rw [effect.stop, effect.handlers]
      exact ⟨hstop, hquiet⟩
  | handles thread hhandler _ =>
      unfold Threads.handlerStep at hhandler
      rw [hquiet thread] at hhandler
      cases hhandler
  | signals thread signal _ _ => cases hsignal

theorem databases_inLoop {j : Fin m} {answers : RunThreads.Answers}
    (hstep : RunThreads.step config (.database j answers) program = some next)
    (hstop : program.threads.threadStopRequested = false)
    (hinLoop : ∀ k, (program.databases k).pc.left = false) (k : Fin m) :
    (next.databases k).pc.left = false := by
  have hupdate : ∀ thread : RunThreads.DatabaseThread, thread.pc.left = false →
      ((program.setDatabase j thread).databases k).pc.left = false := by
    intro thread hthread
    change (Function.update program.databases j thread k).pc.left = false
    by_cases hkj : k = j
    · rw [hkj, Function.update_self]
      exact hthread
    · rw [Function.update_of_ne hkj]
      exact hinLoop k
  cases RunThreads.step_effect hstep with
  | leaves _ _ _ hrequested _ => exact nomatch hstop.symm.trans hrequested
  | calls _ _ _ _ _ hnext =>
      subst hnext
      exact hupdate _ rfl
  | drains _ _ _ _ _ hnext =>
      subst hnext
      exact hinLoop k
  | closes _ _ hpc _ =>
      have hleft := hinLoop j
      rw [hpc] at hleft
      cases hleft
  | moves _ _ thread _ _ _ hthread hnext =>
      subst hnext
      exact hupdate thread hthread.1

theorem Unstopped.step (unstopped : Unstopped program) (hdatabases : 0 < m)
    {label : RunThreads.Label n m} (hsignal : (Label.threads label).isSignal = false)
    (hstep : RunThreads.step config label program = some next) : Unstopped next := by
  have heffect := RunThreads.step_effect hstep
  cases RunThreads.step_threads hstep with
  | steps label hthreads hsame hmain =>
      obtain ⟨hstop, hquiet⟩ :=
        threads_unstopped (m := m) hthreads unstopped.stop unstopped.quiet hsignal
      exact ⟨hstop, hquiet, hsame ▸ unstopped.inLoop, hmain.trans unstopped.main⟩
  | queued i _ _ _ _ _ _ hthreads hsame hmain =>
      refine ⟨?_, ?_, hsame ▸ unstopped.inLoop, hmain.trans unstopped.main⟩
      · rw [hthreads]
        exact unstopped.stop
      · rw [hthreads]
        exact unstopped.quiet
  | queues _ _ hthreads hsame hmain =>
      exact ⟨hthreads ▸ unstopped.stop, hthreads ▸ unstopped.quiet, hsame ▸ unstopped.inLoop,
        hmain.trans unstopped.main⟩
  | database j answers hthreads hmain =>
      exact ⟨hthreads ▸ unstopped.stop, hthreads ▸ unstopped.quiet,
        databases_inLoop hstep unstopped.stop unstopped.inLoop, hmain.trans unstopped.main⟩
  | main _ _ =>
      -- The first database thread has not returned, so the join blocks.
      cases heffect with
      | joins main hreturned _ _ =>
          have hleft := unstopped.inLoop ⟨0, hdatabases⟩
          rw [hreturned unstopped.main ⟨0, hdatabases⟩] at hleft
          cases hleft

end Unstopped

def smallConf : File := some "db_host h\ndb_database d\ndb_user u\n".toList

def defaultSettings : Settings where
  useDb := true
  useRateColumn := true
  useCurrvalueColumn := false
  allowDbZero := false
  maxDbQueue := 10000
  numDbthreads := 1
  maxErrorsPerHost := 3
  queueLength := by decide
  dbThreads := by decide

def reads (file : File) : Label :=
  .main { file := file, memory := defaultRtgconf, unspecified := ⟨0, fun _ => 0⟩ }

end ClusteredPoller.Process
