import ClusteredPoller.Handover.Accounts
import Mathlib.Data.List.ReduceOption

/-!
# What a call adds to the statistics

`process_queries` counts the inserts that it dropped as those that the loop did
not process.  The loop processes all of them, the refused ones included, so the
number is always zero.
-/

namespace ClusteredPoller.Handover

open Library Library.Outcome Poller Queue Threads

variable {n m : Nat}

/-- The queue has room when the poller looks for room, and when it pushes. -/
def Queries.FindsRoom (queries : Queries) (queue : Clbuf Nat) : Prop :=
  match queries.pc with
  | .countFree _ _ => clbufCountFree queue > 0
  | .push insert _ => (clbufPush queue (some insert)).1.isSome
  | _ => True

/-- The poller finds room for the insert in hand. -/
def FindsRoom (i : Fin n) (label : Label n m) (s : State n m) : Prop :=
  ∀ garbage, label = .poller i garbage → (s.pollers i).FindsRoom s.memory.queue

/-- The update adds to the inserted queries the number of inserts that the poller
has pushed since the call, and to the dropped ones the number that it has freed;
together they are all inserts of the call. -/
structure TotalsRight (called final : Memory n m) (i : Fin n) (nQueries : UInt32)
    (totals : QueryTotals) : Prop where
  inserted : ∀ statistics : Statistics, (statistics.addQueries totals).insertQueries =
    statistics.insertQueries +
      UInt32.ofNat ((final.pushedBy i).length - (called.pushedBy i).length)
  dropped : ∀ statistics : Statistics, (statistics.addQueries totals).droppedQueries =
    statistics.droppedQueries +
      UInt32.ofNat ((final.freedBy i).length - (called.freedBy i).length)
  all : totals.queuedQueries.toNat + totals.droppedQueries.toNat = nQueries.toNat

/-! ## The counters of the call -/

/-- The counters of a call, and the numbers of inserts that its poller has pushed
and freed, is about to free, has yet to read and has yet to handle. -/
structure Tally where
  pushed : Nat
  freed : Nat
  refusing : Nat
  reading : Nat
  unhandled : Nat
  nQueries : UInt32
  queuedQueries : UInt32
  processedInserts : UInt32

def tally (i : Fin n) (memory : Memory n m) (queries : Queries) : Tally where
  pushed := (memory.pushedBy i).length
  freed := (memory.freedBy i).length
  refusing := queries.refusing.length
  reading := queries.reading.length
  unhandled := queries.unhandled.length
  nQueries := queries.nQueries
  queuedQueries := queries.queuedQueries
  processedInserts := queries.processedInserts

/-- What a step of the call does to the numbers; `room` tells whether it has found
room. -/
inductive TallyStep (room : Prop) (before after : Tally) : Prop where
  | moves (hroom : room) (hafter : after = before)
  | refuses (hroom : ¬ room) (hafter : after = { before with refusing := before.refusing + 1 })
  | pushes (hroom : room) (more : Nat) (hreading : before.reading = 0)
      (hunhandled : before.unhandled = more + 1)
      (hafter : after =
        { before with
          pushed := before.pushed + 1
          reading := 1
          unhandled := more
          queuedQueries := before.queuedQueries + 1 })
  | reads (hroom : room) (hreading : before.reading = 1)
      (hafter : after =
        { before with
          reading := 0
          processedInserts := before.processedInserts + 1 })
  | frees (hroom : room) (more : Nat) (hreading : before.reading = 0)
      (hrefusing : before.refusing = 1) (hunhandled : before.unhandled = more + 1)
      (hafter : after =
        { before with
          freed := before.freed + 1
          refusing := 0
          unhandled := more
          processedInserts := before.processedInserts + 1 })

/-- The counters of the loop, against the numbers at the call. -/
structure CallCounts (pushed freed : Nat) (count : UInt32) (current : Tally) : Prop where
  nQueries : current.nQueries = count
  pushed : current.pushed = pushed + current.queuedQueries.toNat
  processed : current.processedInserts.toNat + current.reading + freed =
    current.queuedQueries.toNat + current.freed
  unhandled : current.processedInserts.toNat + current.reading + current.unhandled = count.toNat
  freed : freed ≤ current.freed

/-- The inserts that the poller has freed, and the one that it is about to free. -/
def Tally.dropped (current : Tally) : Nat := current.freed + current.refusing

section Tallies

variable {room : Prop} {before after : Tally} {pushed freed : Nat} {count : UInt32}

/-- A counter below the number of inserts does not wrap around. -/
theorem toNat_add_one {counter : UInt32} (count : UInt32) (hlt : counter.toNat < count.toNat) :
    (counter + 1).toNat = counter.toNat + 1 := by
  have hcount := count.toNat_lt
  rw [UInt32.toNat_add]
  exact Nat.mod_eq_of_lt (by change counter.toNat + 1 < 2 ^ 32; omega)

/-- A step of the call keeps the counters right. -/
theorem CallCounts.step (counts : CallCounts pushed freed count before)
    (hstep : TallyStep room before after) : CallCounts pushed freed count after := by
  obtain ⟨hcount, hpushed, hsum, hall, hfreed⟩ := counts
  cases hstep with
  | moves _ hafter =>
      subst hafter
      exact ⟨hcount, hpushed, hsum, hall, hfreed⟩
  | refuses _ hafter =>
      subst hafter
      exact ⟨hcount, hpushed, hsum, hall, hfreed⟩
  | pushes _ more hreading hunhandled hafter =>
      have hnext : (before.queuedQueries + 1).toNat = before.queuedQueries.toNat + 1 :=
        toNat_add_one count (by omega)
      subst hafter
      refine ⟨hcount, ?_, ?_, ?_, hfreed⟩ <;> dsimp only <;> omega
  | reads _ hreading hafter =>
      have hnext : (before.processedInserts + 1).toNat = before.processedInserts.toNat + 1 :=
        toNat_add_one count (by omega)
      subst hafter
      refine ⟨hcount, hpushed, ?_, ?_, hfreed⟩ <;> dsimp only <;> omega
  | frees _ more hreading _ hunhandled hafter =>
      have hnext : (before.processedInserts + 1).toNat = before.processedInserts.toNat + 1 :=
        toNat_add_one count (by omega)
      subst hafter
      refine ⟨hcount, hpushed, ?_, ?_, ?_⟩ <;> dsimp only <;> omega

/-- A step of the call drops an insert exactly if it finds no room for it. -/
theorem TallyStep.dropped (hstep : TallyStep room before after) :
    (room → after.dropped = before.dropped) ∧ (¬ room → after.dropped = before.dropped + 1) := by
  cases hstep with
  | moves hroom hafter =>
      subst hafter
      exact ⟨fun _ => rfl, fun hnone => absurd hroom hnone⟩
  | refuses hnone hafter =>
      subst hafter
      exact ⟨fun hroom => absurd hroom hnone, fun _ => rfl⟩
  | pushes hroom _ _ _ hafter =>
      subst hafter
      exact ⟨fun _ => rfl, fun hnone => absurd hroom hnone⟩
  | reads hroom _ hafter =>
      subst hafter
      exact ⟨fun _ => rfl, fun hnone => absurd hroom hnone⟩
  | frees hroom _ _ hrefusing _ hafter =>
      subst hafter
      refine ⟨fun _ => ?_, fun hnone => absurd hroom hnone⟩
      rw [Tally.dropped, Tally.dropped, hrefusing]
      rfl

end Tallies

section Records

variable {i k : Fin n} {event : Event n m}

theorem pushedBy_record (memory : Memory n m) (i : Fin n) (event : Event n m) :
    (memory.record event).pushedBy i = memory.pushedBy i ++ byPoller i event.push.toList := by
  rw [Memory.pushedBy, Memory.pushes, filterMap_record, byPoller_append]
  rfl

theorem freedBy_record (memory : Memory n m) (i : Fin n) (event : Event n m) :
    (memory.record event).freedBy i = memory.freedBy i ++ byPoller i event.pollerFree.toList := by
  rw [Memory.freedBy, Memory.pollerFrees, filterMap_record, byPoller_append]
  rfl

theorem pushedBy_silent (memory : Memory n m) (hevent : byPoller i event.push.toList = []) :
    (memory.record event).pushedBy i = memory.pushedBy i := by
  rw [pushedBy_record, hevent, List.append_nil]

theorem freedBy_silent (memory : Memory n m) (hevent : byPoller i event.pollerFree.toList = []) :
    (memory.record event).freedBy i = memory.freedBy i := by
  rw [freedBy_record, hevent, List.append_nil]

theorem byPoller_other (hki : k ≠ i) (insert : Nat) : byPoller i [(k, insert)] = [] := by
  rw [byPoller_single, if_neg hki]

theorem byPoller_self (i : Fin n) (insert : Nat) : byPoller i [(i, insert)] = [insert] := by
  rw [byPoller_single, if_pos rfl]

theorem pushedBy_pushed (memory : Memory n m) (i : Fin n) (insert : Nat) :
    (memory.record (.pushed i insert)).pushedBy i = memory.pushedBy i ++ [insert] := by
  rw [pushedBy_record]
  exact congrArg (memory.pushedBy i ++ ·) (byPoller_self i insert)

theorem freedBy_freed (memory : Memory n m) (i : Fin n) (insert : Nat) :
    (memory.record (.freedByPoller i insert)).freedBy i = memory.freedBy i ++ [insert] := by
  rw [freedBy_record]
  exact congrArg (memory.freedBy i ++ ·) (byPoller_self i insert)

end Records

section Call

variable {memory memory' : Memory n m} {i : Fin n} {garbage : UInt32} {queries queries' : Queries}

/-- A record that is neither a push nor a free of the poller leaves its numbers. -/
theorem tally_record {event : Event n m} (memory : Memory n m)
    (hpush : byPoller i event.push.toList = [])
    (hfree : byPoller i event.pollerFree.toList = []) (queries : Queries) :
    tally i (memory.record event) queries = tally i memory queries := by
  rw [tally, pushedBy_silent memory hpush, freedBy_silent memory hfree]
  rfl

/-- The step is the update at the end, or a step of the loop. -/
theorem queriesStep_tally
    (hstep : queriesStep i garbage memory queries = some (memory', queries')) :
    (memory' = memory ∧ queries' = Queries.idle ∧ queries.refusing = [] ∧
      queries.FindsRoom memory.queue) ∨
    TallyStep (queries.FindsRoom memory.queue) (tally i memory queries)
      (tally i memory' queries') := by
  obtain ⟨pc, nQueries, processedInserts, queuedQueries, queuedValues, queued⟩ := queries
  cases pc with
  | idle => cases hstep
  | loopTest rest =>
      refine Or.inr (.moves trivial ?_)
      cases rest with
      | nil =>
          cases hstep
          rfl
      | cons insert rest =>
          cases hstep
          rfl
  | countFree insert rest =>
      unfold queriesStep at hstep
      dsimp only at hstep
      split at hstep
      · rename_i hfree
        cases hstep
        exact Or.inr (.moves hfree rfl)
      · rename_i hfree
        cases hstep
        refine Or.inr (.refuses hfree ?_)
        rw [tally_record memory rfl rfl]
        rfl
  | push insert rest =>
      unfold queriesStep at hstep
      dsimp only at hstep
      split at hstep
      · rename_i queue hpush
        cases hstep
        refine Or.inr (.pushes ?_ rest.length rfl rfl ?_)
        · change (clbufPush memory.queue (some insert)).1.isSome = true
          rw [hpush]
          rfl
        · rw [tally, pushedBy_pushed, freedBy_silent { memory with queue := queue } rfl,
            List.length_append]
          rfl
      · rename_i queue hpush
        cases hstep
        refine Or.inr (.refuses ?_ ?_)
        · change ¬ (clbufPush memory.queue (some insert)).1.isSome = true
          rw [hpush]
          exact Bool.false_ne_true
        · rw [tally_record { memory with queue := queue } rfl rfl]
          rfl
  | readValues insert rest =>
      unfold queriesStep at hstep
      dsimp only at hstep
      split at hstep
      · cases hstep
        refine Or.inr (.reads trivial rfl ?_)
        rw [tally_record memory rfl rfl]
        rfl
      · cases hstep
        exact Or.inr (.reads trivial rfl rfl)
  | freeInsert insert rest =>
      cases hstep
      refine Or.inr (.frees trivial rest.length rfl rfl rfl ?_)
      rw [tally, pushedBy_silent memory rfl, freedBy_freed, List.length_append]
      rfl
  | countUsed =>
      cases hstep
      exact Or.inr (.moves trivial rfl)
  | update depth =>
      cases hstep
      exact Or.inl ⟨rfl, rfl, rfl, trivial⟩

end Call

/-! ## The other threads -/

section Steps

variable {config : Rtgconf} {label : Label n m} {s next : State n m} {i k : Fin n}

/-- A step that is none of the poller's. -/
structure Spares (i : Fin n) (s next : State n m) : Prop where
  pushed : next.memory.pushedBy i = s.memory.pushedBy i
  freed : next.memory.freedBy i = s.memory.freedBy i
  queries : next.pollers i = s.pollers i

theorem pushedBy_congr {memory memory' : Memory n m} (hhistory : memory'.history = memory.history) :
    memory'.pushedBy i = memory.pushedBy i := by
  rw [Memory.pushedBy, Memory.pushedBy, Memory.pushes, Memory.pushes, hhistory]

theorem freedBy_congr {memory memory' : Memory n m} (hhistory : memory'.history = memory.history) :
    memory'.freedBy i = memory.freedBy i := by
  rw [Memory.freedBy, Memory.freedBy, Memory.pollerFrees, Memory.pollerFrees, hhistory]

theorem spares_of_history (hhistory : next.memory.history = s.memory.history)
    (hqueries : next.pollers i = s.pollers i) : Spares i s next :=
  ⟨pushedBy_congr hhistory, freedBy_congr hhistory, hqueries⟩

theorem spares_of_record {memory : Memory n m} {event : Event n m}
    (hmemory : next.memory = memory.record event) (hhistory : memory.history = s.memory.history)
    (hpush : byPoller i event.push.toList = [])
    (hfree : byPoller i event.pollerFree.toList = []) (hqueries : next.pollers i = s.pollers i) :
    Spares i s next := by
  constructor
  · rw [hmemory, pushedBy_silent memory hpush]
    exact pushedBy_congr hhistory
  · rw [hmemory, freedBy_silent memory hfree]
    exact freedBy_congr hhistory
  · exact hqueries

theorem spares_polls {garbage : UInt32} {memory : Memory n m} {queries : Queries}
    (hki : k ≠ i) (effect : QueriesEffect k garbage s.memory memory (s.pollers k) queries) :
    Spares i s { s with memory := memory, pollers := Function.update s.pollers k queries } := by
  have hqueries : Function.update s.pollers k queries i = s.pollers i :=
    Function.update_of_ne hki.symm queries s.pollers
  cases effect with
  | moves hmemory =>
      subst hmemory
      exact spares_of_history rfl hqueries
  | pushes insert queue _ hmemory =>
      exact spares_of_record hmemory rfl (byPoller_other hki insert) rfl hqueries
  | refuses insert hmemory => exact spares_of_record hmemory rfl rfl rfl hqueries
  | reads insert _ hmemory =>
      subst hmemory
      exact spares_of_history rfl hqueries
  | readsStale insert _ hmemory => exact spares_of_record hmemory rfl rfl rfl hqueries
  | frees insert hmemory =>
      exact spares_of_record hmemory rfl rfl (byPoller_other hki insert) hqueries

theorem spares_answers {j : Fin m} {succeeds : Bool} {memory : Memory n m} {draining : Draining}
    (effect : DrainingEffect j succeeds s.memory memory (s.databases j) draining) :
    Spares i s
      { s with memory := memory, databases := Function.update s.databases j draining } := by
  cases effect with
  | moves hmemory =>
      rcases hmemory with rfl | hmemory
      · exact spares_of_history rfl rfl
      · exact spares_of_record hmemory rfl rfl rfl rfl
  | pops insert queue _ hmemory => exact spares_of_record hmemory rfl rfl rfl rfl
  | popsNothing queue _ hmemory =>
      subst hmemory
      exact spares_of_history rfl rfl
  | answers insert event hevent hmemory =>
      rcases hevent with rfl | ⟨succeeded, rfl, -⟩
      · exact spares_of_record hmemory rfl rfl rfl rfl
      · exact spares_of_record hmemory rfl rfl rfl rfl
  | fails fault hmemory =>
      subst hmemory
      exact spares_of_history rfl rfl
  | frees insert hmemory => exact spares_of_record hmemory rfl rfl rfl rfl

/-- A step is the poller's own, or it leaves the poller's records alone. -/
theorem step_spares (hbegin : ∀ hostQueries, label ≠ .begin i hostQueries)
    (hstep : step config label s = some next) :
    (∃ garbage, label = .poller i garbage ∧
      queriesStep i garbage s.memory (s.pollers i) = some (next.memory, next.pollers i)) ∨
      (∀ garbage, label ≠ .poller i garbage) ∧ Spares i s next := by
  cases label with
  | begin k hostQueries =>
      have hki : k ≠ i := fun hki => hbegin hostQueries (by rw [hki])
      refine Or.inr ⟨by simp, ?_⟩
      cases step_effect hstep with
      | begins _ _ memory queries _ hbegun hnext =>
          subst hnext
          obtain ⟨inserts, rfl, -⟩ := beginQueries_ok hbegun
          exact spares_of_history rfl (Function.update_of_ne hki.symm queries s.pollers)
      | beginFails _ _ fault hnext =>
          subst hnext
          exact spares_of_history rfl rfl
  | poller k garbage =>
      by_cases hki : k = i
      · subst hki
        unfold step at hstep
        split at hstep
        · cases hstep
        · obtain ⟨stepped, hqueries, rfl⟩ := Option.map_eq_some_iff.mp hstep
          refine Or.inl ⟨garbage, rfl, ?_⟩
          rw [hqueries]
          exact congrArg (fun queries => some (stepped.1, queries))
            (Function.update_self k stepped.2 s.pollers).symm
      · refine Or.inr ⟨by simp [hki], ?_⟩
        cases step_effect hstep with
        | polls _ _ memory queries effect hnext =>
            subst hnext
            exact spares_polls hki effect
  | drain j useDb =>
      refine Or.inr ⟨by simp, ?_⟩
      cases step_effect hstep with
      | drains _ _ _ hnext =>
          subst hnext
          exact spares_of_history rfl rfl
  | database j succeeds =>
      refine Or.inr ⟨by simp, ?_⟩
      cases step_effect hstep with
      | answers _ _ memory draining effect hnext =>
          subst hnext
          exact spares_answers effect

/-- The poller calls nothing else. -/
def CallsNothing (i : Fin n) (label : Label n m) (_ : State n m) : Prop :=
  ∀ hostQueries, label ≠ .begin i hostQueries

def State.tally (s : State n m) (i : Fin n) : Tally := Handover.tally i s.memory (s.pollers i)

theorem Spares.tally (spares : Spares i s next) : next.tally i = s.tally i := by
  rw [State.tally, Handover.tally, spares.pushed, spares.freed, spares.queries]
  rfl

/-- Any step ends the poller's call, or is a step of its loop, or leaves its
numbers alone. -/
theorem step_tally (hbegin : CallsNothing i label s) (hstep : step config label s = some next) :
    ((next.pollers i).pc = .idle ∧ (next.tally i).dropped = (s.tally i).dropped ∧
      FindsRoom i label s) ∨
    TallyStep (FindsRoom i label s) (s.tally i) (next.tally i) := by
  rcases step_spares hbegin hstep with ⟨garbage, rfl, hqueries⟩ | ⟨hother, spares⟩
  · have hroom : FindsRoom i (.poller i garbage) s ↔ (s.pollers i).FindsRoom s.memory.queue :=
      ⟨fun hfinds => hfinds garbage rfl, fun hfinds _ _ => hfinds⟩
    rw [hroom]
    rcases queriesStep_tally hqueries with ⟨hmemory, hidle, hrefusing, hfinds⟩ | htally
    · refine Or.inl ⟨by rw [hidle]; rfl, ?_, hfinds⟩
      rw [State.tally, State.tally, hmemory, hidle, Tally.dropped, Tally.dropped,
        Handover.tally, Handover.tally, hrefusing]
      rfl
    · exact Or.inr htally
  · exact Or.inr (.moves (fun garbage hlabel => absurd hlabel (hother garbage)) spares.tally)

/-- The poller is in the call, or the call is over. -/
def InCall (called : Memory n m) (count : UInt32) (i : Fin n) (s : State n m) : Prop :=
  (s.pollers i).pc = .idle ∨
    CallCounts (called.pushedBy i).length (called.freedBy i).length count (s.tally i)

theorem inCall_keeps (config : Rtgconf) (called : Memory n m) (count : UInt32) (i : Fin n) :
    Transition.Keeps (step config) (CallsNothing i) (InCall called count i) := by
  intro label s next hbegin hcall hstep
  rcases hcall with hidle | counts
  · refine Or.inl ?_
    rcases step_spares hbegin hstep with ⟨garbage, rfl, hqueries⟩ | ⟨-, spares⟩
    · rw [queriesStep, hidle] at hqueries
      cases hqueries
    · rw [spares.queries]
      exact hidle
  · rcases step_tally hbegin hstep with ⟨hidle, -, -⟩ | htally
    · exact Or.inl hidle
    · exact Or.inr (counts.step htally)

/-- A step drops an insert exactly if the poller finds no room for it. -/
theorem step_dropped (hbegin : CallsNothing i label s) (hstep : step config label s = some next) :
    (FindsRoom i label s → (next.tally i).dropped = (s.tally i).dropped) ∧
      (¬ FindsRoom i label s → (next.tally i).dropped = (s.tally i).dropped + 1) := by
  rcases step_tally hbegin hstep with ⟨-, hsame, hfinds⟩ | htally
  · exact ⟨fun _ => hsame, fun hnone => absurd hfinds hnone⟩
  · exact htally.dropped

/-- The count of the dropped inserts does not go down. -/
theorem dropped_atLeast (config : Rtgconf) (least : Nat) (i : Fin n) :
    Transition.Keeps (step config) (CallsNothing i)
      fun s : State n m => least ≤ (s.tally i).dropped := by
  intro label s next hlabel hle hstep
  obtain ⟨hkept, hmore⟩ := step_dropped hlabel hstep
  by_cases hroom : FindsRoom i label s
  · rw [hkept hroom]
    exact hle
  · rw [hmore hroom]
    exact Nat.le_succ_of_le hle

/-- The count stays at its least exactly if the poller finds room. -/
theorem dropped_eq_iff {least : Nat} (hbegin : CallsNothing i label s)
    (hle : least ≤ (s.tally i).dropped) (hstep : step config label s = some next) :
    (next.tally i).dropped = least ↔ (s.tally i).dropped = least ∧ FindsRoom i label s := by
  obtain ⟨hkept, hmore⟩ := step_dropped hbegin hstep
  by_cases hroom : FindsRoom i label s
  · rw [hkept hroom]
    exact (and_iff_left hroom).symm
  · rw [hmore hroom]
    refine iff_of_false (fun heq => ?_) fun both => hroom both.2
    exact absurd hle (Nat.not_le.mpr (heq ▸ Nat.lt_succ_self _))

end Steps

/-! ## All runs -/

section Runs

variable {config : Rtgconf} {s final : State n m} {i : Fin n}

/-- As many inserts are taken from the list as are counted. -/
theorem clinsertCount_taken {hostQueries : Inserts} {count : UInt32}
    (hcount : clinsertCount hostQueries = .ok count) :
    (hostQueries.take count.toNat).reduceOption.length = count.toNat := by
  have hfront : ∃ (inserts : List Clinsert) (rest : Inserts),
      hostQueries = inserts.map some ++ rest ∧ count = UInt32.ofNat inserts.length := by
    induction hostQueries generalizing count with
    | nil => cases hcount
    | cons slot slots ih =>
        cases slot with
        | none =>
            cases hcount
            exact ⟨[], none :: slots, rfl, rfl⟩
        | some insert =>
            obtain ⟨behind, hbehind, hsum⟩ := bind_eq_ok.mp hcount
            cases hsum
            obtain ⟨inserts, rest, rfl, rfl⟩ := ih hbehind
            exact ⟨insert :: inserts, rest, rfl, (UInt32.ofNat_add inserts.length 1).symm⟩
  obtain ⟨inserts, rest, rfl, rfl⟩ := hfront
  have hle : (UInt32.ofNat inserts.length).toNat ≤ inserts.length := by
    rw [UInt32.toNat_ofNat']
    exact Nat.mod_le _ _
  rw [List.take_append_of_le_length (by rwa [List.length_map]), ← List.map_take,
    List.reduceOption_length_eq_iff.mpr, List.length_map, List.length_take, Nat.min_eq_left hle]
  intro slot hslot
  obtain ⟨insert, -, rfl⟩ := List.mem_map.mp hslot
  rfl

theorem inCall_begin {hostQueries : Inserts} {called : State n m}
    (hbegin : step config (.begin i hostQueries) s = some called) :
    InCall called.memory (called.pollers i).nQueries i called ∧
      (called.pollers i).refusing = [] := by
  cases step_effect hbegin with
  | begins _ _ memory queries _ hbegun hnext =>
      subst hnext
      obtain ⟨nQueries, hcount, hqueries⟩ := bind_eq_ok.mp hbegun
      cases hqueries
      dsimp only [InCall, State.tally]
      rw [Function.update_self]
      refine ⟨Or.inr ⟨rfl, rfl, rfl, ?_, le_rfl⟩, rfl⟩
      change 0 + 0 + (List.range' _ _).length = nQueries.toNat
      rw [List.length_range', clinsertCount_taken hcount, Nat.zero_add]
  | beginFails _ _ fault hnext hpc =>
      subst hnext
      refine ⟨Or.inl hpc, ?_⟩
      rw [Queries.refusing, hpc]

/-- At the update the totals are right exactly if nothing was dropped. -/
theorem totalsRight_iff {called : Memory n m} {count depth : UInt32}
    (counts : CallCounts (called.pushedBy i).length (called.freedBy i).length count (s.tally i))
    (hpc : (s.pollers i).pc = .update depth) :
    TotalsRight called s.memory i count ((s.pollers i).totals depth) ↔
      (s.tally i).dropped = (called.freedBy i).length := by
  obtain ⟨hcount, hpushed, hsum, hall, hle⟩ := counts
  have hrefusing : (s.pollers i).refusing = [] := by rw [Queries.refusing, hpc]
  have hreading : (s.tally i).reading = 0 := by
    rw [State.tally, Handover.tally, Queries.reading, hpc]
    rfl
  have hunhandled : (s.tally i).unhandled = 0 := by
    rw [State.tally, Handover.tally, Queries.unhandled, hpc]
    rfl
  have hdropped : (s.tally i).dropped = (s.memory.freedBy i).length := by
    rw [Tally.dropped, State.tally, Handover.tally, hrefusing]
    rfl
  have hprocessed : (s.pollers i).processedInserts = count := by
    refine UInt32.toNat_inj.mp ?_
    change (s.tally i).processedInserts.toNat = count.toNat
    omega
  have hzero : (s.pollers i).nQueries - (s.pollers i).processedInserts = 0 := by
    change (s.tally i).nQueries - _ = 0
    rw [hcount, hprocessed, UInt32.sub_self]
  have hqueued : (s.pollers i).queuedQueries.toNat + (s.memory.freedBy i).length =
      count.toNat + (called.freedBy i).length := by
    change (s.tally i).queuedQueries.toNat + (s.tally i).freed = _
    omega
  rw [hdropped]
  constructor
  · intro right
    have hboth := right.all
    change (s.pollers i).queuedQueries.toNat +
      ((s.pollers i).nQueries - (s.pollers i).processedInserts).toNat = count.toNat at hboth
    rw [hzero, UInt32.toNat_zero] at hboth
    omega
  · intro hsame
    constructor
    · intro statistics
      change statistics.insertQueries + (s.pollers i).queuedQueries = _
      change (s.memory.pushedBy i).length = _ + (s.pollers i).queuedQueries.toNat at hpushed
      rw [hpushed, Nat.add_sub_cancel_left, UInt32.ofNat_toNat]
    · intro statistics
      change statistics.droppedQueries +
        ((s.pollers i).nQueries - (s.pollers i).processedInserts) = _
      rw [hzero, hsame, Nat.sub_self]
      rfl
    · change (s.pollers i).queuedQueries.toNat +
        ((s.pollers i).nQueries - (s.pollers i).processedInserts).toNat = count.toNat
      rw [hzero, UInt32.toNat_zero]
      omega

/-- The update of a call adds the numbers of pushed and of dropped inserts exactly
if every insert of the call finds room. -/
theorem queries_totals_iff {hostQueries : Inserts} {called : State n m}
    (hbegin : step config (.begin i hostQueries) s = some called) {labels : List (Label n m)}
    (hcalls : ∀ label ∈ labels, ∀ list, label ≠ .begin i list)
    (hrun : Transition.run (step config) labels called = some final) {depth : UInt32}
    (hpc : (final.pollers i).pc = .update depth) :
    TotalsRight called.memory final.memory i (called.pollers i).nQueries
        ((final.pollers i).totals depth) ↔
      Transition.Guarded (step config) (FindsRoom i) labels called := by
  obtain ⟨hcall, hrefusing⟩ := inCall_begin hbegin
  have hlabels : Transition.Guarded (step config) (CallsNothing i) labels called :=
    Transition.guarded_of_labels (fun label hlabel _ => hcalls label hlabel) called
  have hkeeps := inCall_keeps config called.memory (called.pollers i).nQueries i
  have counts := (hkeeps.run hlabels hcall hrun).resolve_left (by rw [hpc]; simp)
  have hstart : (called.tally i).dropped = (called.memory.freedBy i).length := by
    rw [Tally.dropped, State.tally, Handover.tally, hrefusing]
    rfl
  rw [totalsRight_iff counts hpc]
  exact (hlabels.iff_of_steps (dropped_atLeast config (called.memory.freedBy i).length i)
    (fun label s next hlabel hle hstep => dropped_eq_iff hlabel hle hstep)
    hstart.ge hrun).trans (and_iff_right hstart)

/-- The poller's own steps of a call with one insert that finds room, after
`begin`. -/
def callOfOne : List (Label 1 1) := List.replicate 6 (.poller onlyThread 0)

theorem queries_totals_iff_callOfOne :
    ∃ called final : State 1 1, step defaultRtgconf (.begin onlyThread (quietInserts 1))
        (State.start 1 (by decide)) = some called ∧
      Transition.run (step defaultRtgconf) callOfOne called = some final ∧
      (TotalsRight called.memory final.memory onlyThread 1
          ((final.pollers onlyThread).totals 1) ↔
        Transition.Guarded (step defaultRtgconf) (FindsRoom onlyThread) callOfOne called) :=
  ⟨_, _, rfl, rfl, queries_totals_iff
    (rfl : step defaultRtgconf (.begin onlyThread (quietInserts 1)) (State.start 1 (by decide)) =
      some _) (by simp [callOfOne])
    (rfl : Transition.run (step defaultRtgconf) callOfOne _ = some _) rfl⟩

/-- With two inserts for a queue with one slot, a call frees one and counts no
dropped insert. -/
theorem dropped_insert_not_counted :
    ∃ called final : State 1 1, step defaultRtgconf (.begin onlyThread (quietInserts 2))
        (State.start 1 (by decide)) = some called ∧
      Transition.run (step defaultRtgconf) (List.replicate 9 (.poller onlyThread 0)) called =
        some final ∧
      (final.pollers onlyThread).pc = .update 1 ∧
      final.memory.pushedBy onlyThread = [0] ∧ final.memory.freedBy onlyThread = [1] ∧
      ((final.pollers onlyThread).totals 1).queuedQueries = 1 ∧
      ((final.pollers onlyThread).totals 1).droppedQueries = 0 ∧
      ¬ TotalsRight called.memory final.memory onlyThread 2 ((final.pollers onlyThread).totals 1) :=
  ⟨_, _, rfl, rfl, rfl, rfl, rfl, rfl, rfl, fun right => absurd right.all (by decide)⟩

end Runs

end ClusteredPoller.Handover
