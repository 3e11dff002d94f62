import ClusteredPoller.Threads.Effects

/-!
# What a step leaves alone

A step of a poller changes at most the program counter of the poller, but for the
end of a round, and it changes the counters of the statistics only in the two
locked updates.  Other threads than the monitor leave the counters alone.
-/

namespace ClusteredPoller.Threads

open Poller State

/-- The counters to which the pollers add, and which `end_iteration` resets. -/
def ledgerFields : List StatisticsField := [.snmpSuccess, .snmpFail, .insertRows, .insertQueries]

/-- At a locked update of the statistics. -/
def PollerPc.updates : PollerPc → Bool
  | .processing _ _ (.snmpUpdate _) | .processing _ _ (.statsUpdate _) => true
  | _ => false

section Frame

variable {n : Nat} {config : Rtgconf} {meets : Meeting} {s next t : State n} {i : Fin n}

/-- At most the poller's program counter has changed. -/
def Moved (i : Fin n) (s next : State n) : Prop :=
  ∃ pc, next.pollers = Function.update s.pollers i { s.pollers i with pc := pc }

theorem moved_of_pollers (hpollers : next.pollers = s.pollers) : Moved i s next :=
  ⟨(s.pollers i).pc, hpollers.trans (Function.update_eq_self i s.pollers).symm⟩

theorem moved_goto (hpollers : t.pollers = s.pollers) (pc : PollerPc) :
    Moved i s (t.goto i pc) := by
  refine ⟨pc, ?_⟩
  rw [goto, setPoller, hpollers]

theorem Moved.iterations (moved : Moved i s next) (k : Fin n) :
    (next.pollers k).iterations = (s.pollers k).iterations := by
  obtain ⟨pc, hpollers⟩ := moved
  rw [hpollers]
  by_cases hki : k = i
  · rw [hki, Function.update_self]
  · rw [Function.update_of_ne hki]

/-- The counters of the ledger stay as they are. -/
def KeepsCounters (s next : State n) : Prop :=
  ∀ field ∈ ledgerFields, next.statistics.read field = s.statistics.read field

theorem keepsCounters_of_statistics (hstatistics : next.statistics = s.statistics) :
    KeepsCounters s next := fun field _ => by rw [hstatistics]

/-- What a step of a poller does to the counters. -/
inductive StatisticsEffect (i : Fin n) (s next : State n) : Prop where
  | snmp (host round : Nat) (progress : Progress)
      (hpc : (s.pollers i).pc = .processing host round (.snmpUpdate progress))
      (hafter : next.statistics = s.statistics.addSnmp progress)
  | queries (host round : Nat) (totals : QueryTotals)
      (hpc : (s.pollers i).pc = .processing host round (.statsUpdate totals))
      (hafter : next.statistics = s.statistics.addQueries totals)
  | other (hpc : (s.pollers i).pc.updates = false) (hkeeps : KeepsCounters s next)

structure PollerFrame (i : Fin n) (s next : State n) : Prop where
  moved : (s.pollers i).pc ≠ .roundEnd → Moved i s next
  statistics : StatisticsEffect i s next

/-- A step that changes neither counters nor pollers, but for a program counter. -/
theorem frame_goto {before : PollerPc} (hpc : (s.pollers i).pc = before)
    (hquiet : before.updates = false) (hpollers : t.pollers = s.pollers)
    (hkeeps : KeepsCounters s t) (after : PollerPc) : PollerFrame i s (t.goto i after) :=
  ⟨fun _ => moved_goto hpollers after, .other (hpc ▸ hquiet) hkeeps⟩

/-- A fault. -/
theorem frame_fail {before : PollerPc} (hpc : (s.pollers i).pc = before)
    (hquiet : before.updates = false) (fault : Fault) : PollerFrame i s (s.fail fault) :=
  ⟨fun _ => moved_of_pollers rfl, .other (hpc ▸ hquiet) (keepsCounters_of_statistics rfl)⟩

theorem hostMove_frame {host round : Nat} {stage : HostStage}
    (hpc : (s.pollers i).pc = .processing host round stage)
    (move : HostMove i host round s stage next) : PollerFrame i s next := by
  cases move with
  | openFails fault | queryFails _ _ _ _ fault | queueFails _ fault =>
      exact frame_fail hpc rfl fault
  | queries number _ _ _ row' =>
      exact @frame_goto n s (s.setRow host number row') i _ hpc rfl rfl
        (keepsCounters_of_statistics rfl) _
  | snmpUpdates progress => exact ⟨fun _ => moved_goto rfl _, .snmp host round progress hpc rfl⟩
  | statsUpdates totals => exact ⟨fun _ => moved_goto rfl _, .queries host round totals hpc rfl⟩
  | snmpUnlocks =>
      exact @frame_goto n s s.release i _ hpc rfl rfl (keepsCounters_of_statistics rfl) _
  | statsUnlocks =>
      exact @frame_goto n s (s.release.finishHost host round) i _ hpc rfl rfl
        (keepsCounters_of_statistics rfl) _
  | opens | endsRows | snmpLocks | queues | statsLocks =>
      refine frame_goto hpc rfl ?_ (keepsCounters_of_statistics ?_) _
      · rfl
      · rfl

theorem pollerStep_frame (hstep : pollerStep config i meets s = some next) :
    PollerFrame i s next := by
  obtain ⟨pc, hpc, move⟩ := pollerStep_move hstep
  cases move with
  | inactiveLasts =>
      refine frame_goto hpc rfl ?_ (fun field _ => ?_) .condWait
      · rfl
      · cases field <;> rfl
  | processes host round stage move => exact hostMove_frame hpc move
  | endsRound =>
      exact ⟨fun hround => absurd hpc hround,
        .other (by rw [hpc]; rfl) (keepsCounters_of_statistics rfl)⟩
  | _ =>
      refine frame_goto hpc rfl ?_ (keepsCounters_of_statistics ?_) _
      · rfl
      · rfl

theorem handlerStep_counters {thread : ThreadId n} (hstep : handlerStep thread s = some next) :
    KeepsCounters s next := by
  obtain ⟨frames, -, move⟩ := handlerStep_move hstep
  cases move with
  | _ => exact keepsCounters_of_statistics rfl

end Frame

end ClusteredPoller.Threads
