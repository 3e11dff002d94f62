import ClusteredPoller.Handover.Queries
import ClusteredPoller.Library.Observation
import ClusteredPoller.RunThreads.Drained
import ClusteredPoller.RunThreads.Steps
import ClusteredPoller.Threads.InHand

/-!
# From the samples to the queries

What `get_clinserts` stores goes with its insert through the queue to a database
thread.  At any time a sample is in one place: in hand of its poller, or in an
insert, and the insert has one fate.
-/

namespace ClusteredPoller.RunThreads

open Database Poller
open Handover (Fate)
open Library Library.Transition

inductive Flow where
  /-- `get_clinserts` stores a value. -/
  | stored (sample : Push)
  /-- A query goes to MySQL or to the log. -/
  | sent (query : CString) (succeeded : Bool)

def Flow.sample : Flow → Option Push
  | .stored sample => some sample
  | .sent _ _ => none

def Flow.query : Flow → Option (CString × Bool)
  | .stored _ => none
  | .sent query succeeded => some (query, succeeded)

section Definitions

variable {n m : Nat}

/-- What a step of `database_run` sends. -/
def Program.sends (s : Program n m) (j : Fin m) (answers : Answers) : List Flow :=
  match (s.databases j).pc, (s.handover.databases j).pc with
  | .draining, .execute _ query =>
      [.sent query (!(s.handover.databases j).useDb || answers.succeeds)]
  | _, _ => []

/-- What goes into the program and out of it in a step. -/
def flows : Label n m → Program n m → List Flow
  | .threads label, s => (s.threads.stores label).map .stored
  | .database j answers, s => s.sends j answers
  | _, _ => []

def storedIn (events : List Flow) : List Push := events.filterMap Flow.sample

def sentIn (events : List Flow) : List (CString × Bool) := events.filterMap Flow.query

/-- The samples that a poller has in hand, outside of `process_queries`. -/
def Program.inHand (s : Program n m) (i : Fin n) : Multiset Push :=
  if (s.handover.pollers i).pc = .idle then (s.threads.pollers i).pc.held else 0

/-- The samples in the inserts with a fate. -/
def Program.samplesOf (s : Program n m) (fate : Fate n m) : Multiset Push :=
  (s.handover.fates fate).bind s.handover.memory.samplesAt

/-- The query of this execution is the one built from its insert. -/
def SentFor (config : Rtgconf) (memory : Handover.Memory n m) (sent : CString × Bool)
    (execution : Nat × Bool) : Prop :=
  memory.queryOf config execution.1 = some (.ok (some sent.1)) ∧ sent.2 = execution.2

/-- Every sample is somewhere, and once, and so is every insert. -/
structure Conserved (config : Rtgconf) (events : List Flow) (s : Program n m) : Prop where
  /-- The queries sent, in order, are those of the executed inserts. -/
  sent : List.Forall₂ (SentFor config s.handover.memory) (sentIn events)
    s.handover.memory.executions
  /-- An omitted insert has no query. -/
  omitted : ∀ insert ∈ s.handover.memory.ended .omitted,
    s.handover.memory.queryOf config insert = some (.ok none)
  samples : (storedIn events : Multiset Push) = ∑ i, s.inHand i + ∑ fate, s.samplesOf fate
  fated : Handover.Fated s.handover

end Definitions

/-! ## Queries -/

section Sent

variable {n m : Nat} {config : Rtgconf} {s next : Program n m}

theorem sentIn_stored (samples : List Push) : sentIn (samples.map .stored) = [] := by
  induction samples with
  | nil => rfl
  | cons sample samples ih => exact ih

theorem storedIn_stored (samples : List Push) : storedIn (samples.map .stored) = samples := by
  induction samples with
  | nil => rfl
  | cons sample samples ih => exact congrArg (sample :: ·) ih

theorem storedIn_sends (s : Program n m) (j : Fin m) (answers : Answers) :
    storedIn (s.sends j answers) = [] := by
  unfold Program.sends
  split
  · rfl
  · rfl

theorem sentFor_append {memory memory' : Handover.Memory n m} {inserts : List Clinsert}
    (hinserts : memory'.inserts = memory.inserts ++ inserts) {sent : CString × Bool}
    {execution : Nat × Bool} (sentFor : SentFor config memory sent execution) :
    SentFor config memory' sent execution :=
  ⟨Handover.queryOf_append hinserts sentFor.1, sentFor.2⟩

/-- The step executes what it sends. -/
def Sends (config : Rtgconf) (s next : Program n m) (sent : List (CString × Bool)) : Prop :=
  ∃ inserts executed,
    next.handover.memory.inserts = s.handover.memory.inserts ++ inserts ∧
    next.handover.memory.executions = s.handover.memory.executions ++ executed ∧
    List.Forall₂ (SentFor config s.handover.memory) sent executed

theorem sends_nothing (hsame : next.handover = s.handover) : Sends config s next [] := by
  refine ⟨[], [], ?_, ?_, .nil⟩
  · rw [hsame, List.append_nil]
  · rw [hsame, List.append_nil]

/-- A step that executes nothing. -/
theorem sends_of_step {shared : Handover.Label n m}
    (hstep : Handover.step config shared s.handover = some next.handover)
    (hnothing : Handover.executes shared s.handover = []) : Sends config s next [] := by
  have grows := Handover.step_grows hstep
  obtain ⟨inserts, hinserts⟩ := grows.inserts
  refine ⟨inserts, [], hinserts, ?_, .nil⟩
  rw [grows.executions, hnothing]

theorem step_sends {label : Label n m} (built : Handover.Built config s.handover)
    (hstep : step config label s = some next) :
    Sends config s next (sentIn (flows label s)) := by
  cases step_effect hstep with
  | threads label threads hnext =>
      subst hnext
      rw [flows, sentIn_stored]
      exact sends_nothing rfl
  | queries i garbage threads handover hqueries hnext =>
      subst hnext
      rcases hqueries with ⟨inserts, hbegin⟩ | hpoller
      · exact sends_of_step hbegin rfl
      · exact sends_of_step hpoller rfl
  | leaves j answers hpc _ hnext | closes j answers hpc hnext =>
      subst hnext
      rw [flows, Program.sends, hpc]
      exact sends_nothing rfl
  | calls j answers handover hpc hdrain hnext =>
      subst hnext
      rw [flows, Program.sends, hpc]
      exact sends_of_step hdrain rfl
  | drains j answers handover hpc hdatabase hnext =>
      subst hnext
      have grows := Handover.step_grows hdatabase
      obtain ⟨inserts, hinserts⟩ := grows.inserts
      refine ⟨inserts, _, hinserts, grows.executions, ?_⟩
      rw [flows, Program.sends, hpc, Handover.executes, Handover.Draining.executes]
      cases hdraining : (s.handover.databases j).pc with
      | execute insert query => exact .cons ⟨built.executing j insert query hdraining, rfl⟩ .nil
      | _ => exact .nil
  | moves j answers thread _ hidle _ _ hnext =>
      subst hnext
      have hnothing : s.sends j answers = [] := by
        unfold Program.sends
        split
        · rename_i hpc hexecute
          cases hexecute.symm.trans (hidle hpc)
        · rfl
      rw [flows, hnothing]
      exact sends_nothing rfl
  | joins main _ _ hnext =>
      subst hnext
      exact sends_nothing rfl

end Sent

/-! ## Samples -/

section Samples

variable {n m : Nat} {config : Rtgconf} {s next : Program n m}

/-- What is in hand of the pollers. -/
structure Handing (s : Program n m) : Prop where
  packed : ∀ i, (s.threads.pollers i).pc.Packed
  /-- A poller in `process_queries` has come there with its inserts. -/
  queueing : ∀ i, (s.handover.pollers i).pc ≠ .idle → (s.threads.pollers i).pc.queues = true
  joined : s.main = .joinMonitor ∨ s.main = .freeQueue →
    ∀ i, (s.threads.pollers i).pc = .returned

/-- All samples that are in hand or in an insert. -/
def Program.samples (s : Program n m) : Multiset Push :=
  Holdings.total s.inHand + samplesIn s.handover.memory.inserts

theorem inHand_idle {i : Fin n} (hidle : (s.handover.pollers i).pc = .idle) :
    s.inHand i = (s.threads.pollers i).pc.held := if_pos hidle

theorem inHand_busy {i : Fin n} (hbusy : (s.handover.pollers i).pc ≠ .idle) : s.inHand i = 0 :=
  if_neg hbusy

theorem Handing.idle (handing : Handing s) {i : Fin n}
    (hqueues : (s.threads.pollers i).pc.queues = false) : (s.handover.pollers i).pc = .idle := by
  by_contra hbusy
  rw [handing.queueing i hbusy] at hqueues
  cases hqueues

/-- What a step does to the samples. -/
structure Passes (s next : Program n m) (stored : List Push) : Prop where
  handing : Handing next
  samples : next.samples = s.samples + stored

/-- A step of the database threads or the main thread. -/
theorem passes_of_same (handing : Handing s) (hthreads : next.threads = s.threads)
    (hpollers : next.handover.pollers = s.handover.pollers)
    (hinserts : next.handover.memory.inserts = s.handover.memory.inserts)
    (hjoined : next.main = .joinMonitor ∨ next.main = .freeQueue →
      ∀ i, (s.threads.pollers i).pc = .returned) : Passes s next [] := by
  have hinHand : next.inHand = s.inHand := by
    funext i
    rw [Program.inHand, Program.inHand, hthreads, hpollers]
  refine ⟨⟨?_, ?_, ?_⟩, ?_⟩
  · rw [hthreads]
    exact handing.packed
  · rw [hthreads, hpollers]
    exact handing.queueing
  · rw [hthreads]
    exact hjoined
  · rw [Program.samples, Program.samples, hinHand, hinserts]
    exact (add_zero _).symm

theorem clear_of_step {label : Threads.Label n}
    (hstep : step config (.threads label : Label n m) s = some next) :
    s.threads.clear label = true := by
  unfold step at hstep
  split at hstep
  · cases hstep
  · dsimp only at hstep
    split at hstep
    · cases hstep
    · rename_i hat
      cases label with
      | poller i meets =>
          have hqueueing : (s.queueing i).isSome = false := Bool.eq_false_of_not_eq_true hat
          unfold Program.queueing at hqueueing
          rw [Threads.State.clear]
          cases hpc : (s.threads.pollers i).pc with
          | processing host round stage =>
              cases stage with
              | queueInserts inserts =>
                  rw [hpc] at hqueueing
                  cases hqueueing
              | _ => rfl
          | _ => rfl
      | tick | monitor | callsCllog | cllog | handler | signal => rfl

theorem passes_of_threads {label : Threads.Label n} (handing : Handing s)
    (hstep : step config (.threads label : Label n m) s = some next) :
    Passes s next (s.threads.stores label) := by
  have hclear := clear_of_step hstep
  have hhandover : next.handover = s.handover := by
    cases step_effect hstep with
    | threads _ threads hnext =>
        subst hnext
        rfl
  cases step_threads hstep with
  | steps _ hthreads _ hmain =>
      rcases Threads.step_holds handing.packed hclear hthreads with
        ⟨i, holds, hqueues, hrunning, hothers⟩ | ⟨hpollers, hnothing⟩
      · have hidle := handing.idle hqueues
        have hidle' : (next.handover.pollers i).pc = .idle := by
          rw [hhandover]
          exact hidle
        have gains : Holdings.Gains s.inHand next.inHand i (s.threads.stores label) := by
          constructor
          · rw [inHand_idle hidle, inHand_idle hidle', holds.held, add_comm]
          · intro k hki
            rw [Program.inHand, Program.inHand, hhandover, hothers k hki]
        refine ⟨⟨fun k => ?_, fun k hbusy => ?_, fun hjoined => ?_⟩, ?_⟩
        · by_cases hki : k = i
          · rw [hki]
            exact holds.packed
          · rw [hothers k hki]
            exact handing.packed k
        · by_cases hki : k = i
          · subst hki
            exact absurd hidle' hbusy
          · rw [hhandover] at hbusy
            rw [hothers k hki]
            exact handing.queueing k hbusy
        · rw [hmain] at hjoined
          exact absurd (handing.joined hjoined i) hrunning
        · rw [Program.samples, Program.samples, gains.total_eq, hhandover, add_right_comm]
      · have hinHand : next.inHand = s.inHand := by
          funext k
          rw [Program.inHand, Program.inHand, hhandover, hpollers]
        rw [hnothing]
        refine ⟨⟨?_, ?_, ?_⟩, ?_⟩
        · rw [hpollers]
          exact handing.packed
        · rw [hpollers, hhandover]
          exact handing.queueing
        · rw [hpollers, hmain]
          exact handing.joined
        · rw [Program.samples, Program.samples, hinHand, hhandover]
          exact (add_zero _).symm

theorem beginQueries_allocates {memory memory' : Handover.Memory n m} {hostQueries : Inserts}
    {queries : Handover.Queries}
    (hbegin : Handover.beginQueries memory hostQueries = .ok (memory', queries)) :
    ∃ count, clinsertCount hostQueries = .ok count ∧
      memory'.inserts = memory.inserts ++ (hostQueries.take count.toNat).reduceOption ∧
      queries.pc ≠ .idle := by
  obtain ⟨count, hcount, hrest⟩ := Outcome.bind_eq_ok.mp hbegin
  cases hrest
  exact ⟨count, hcount, rfl, nofun⟩

/-- `process_queries` ends with the update of the statistics. -/
theorem queriesStep_idle {i : Fin n} {garbage : UInt32} {memory memory' : Handover.Memory n m}
    {queries queries' : Handover.Queries}
    (hstep : Handover.queriesStep i garbage memory queries = some (memory', queries')) :
    queries'.pc = .idle ↔ ∃ depth, queries.pc = .update depth := by
  obtain ⟨pc, nQueries, processedInserts, queuedQueries, queuedValues, queued⟩ := queries
  cases pc with
  | idle => cases hstep
  | loopTest rest =>
      cases rest with
      | nil | cons =>
          cases hstep
          exact ⟨nofun, nofun⟩
  | countFree insert rest | readValues insert rest =>
      unfold Handover.queriesStep at hstep
      dsimp only at hstep
      split at hstep
      · cases hstep
        exact ⟨nofun, nofun⟩
      · cases hstep
        exact ⟨nofun, nofun⟩
  | push insert rest =>
      unfold Handover.queriesStep at hstep
      dsimp only at hstep
      split at hstep
      · cases hstep
        exact ⟨nofun, nofun⟩
      · cases hstep
        exact ⟨nofun, nofun⟩
  | freeInsert insert rest | countUsed =>
      cases hstep
      exact ⟨nofun, nofun⟩
  | update depth =>
      cases hstep
      exact ⟨fun _ => ⟨depth, rfl⟩, fun _ => rfl⟩

theorem handoverStep_polls {h h' : Handover.State n m} {i : Fin n} {garbage : UInt32}
    (hstep : Handover.step config (.poller i garbage) h = some h') :
    ∃ memory queries,
      Handover.queriesStep i garbage h.memory (h.pollers i) = some (memory, queries) ∧
      h' = { h with memory := memory, pollers := Function.update h.pollers i queries } := by
  unfold Handover.step at hstep
  split at hstep
  · cases hstep
  · obtain ⟨stepped, hqueries, rfl⟩ := Option.map_eq_some_iff.mp hstep
    exact ⟨stepped.1, stepped.2, hqueries, rfl⟩

/-- The other pollers stay where they are. -/
structure OnlyPoller (i : Fin n) (s next : Program n m) : Prop where
  main : next.main = s.main
  handover : ∀ k, k ≠ i → next.handover.pollers k = s.handover.pollers k
  threads : ∀ k, k ≠ i → next.threads.pollers k = s.threads.pollers k

theorem OnlyPoller.inHand {i : Fin n} (only : OnlyPoller i s next) {k : Fin n} (hki : k ≠ i) :
    next.inHand k = s.inHand k := by
  rw [Program.inHand, Program.inHand, only.handover k hki, only.threads k hki]

theorem OnlyPoller.handing {i : Fin n} (only : OnlyPoller i s next) (handing : Handing s)
    (hqueues : (s.threads.pollers i).pc.queues = true)
    (packed : (next.threads.pollers i).pc.Packed)
    (queueing : (next.handover.pollers i).pc ≠ .idle →
      (next.threads.pollers i).pc.queues = true) : Handing next := by
  refine ⟨fun k => ?_, fun k hbusy => ?_, fun hjoined => ?_⟩
  · by_cases hki : k = i
    · rw [hki]
      exact packed
    · rw [only.threads k hki]
      exact handing.packed k
  · by_cases hki : k = i
    · subst hki
      exact queueing hbusy
    · rw [only.handover k hki] at hbusy
      rw [only.threads k hki]
      exact handing.queueing k hbusy
  · rw [only.main] at hjoined
    rw [handing.joined hjoined i] at hqueues
    cases hqueues

/-- A poller that is in `process_queries` has passed on what it had. -/
theorem passes_of_busy {i : Fin n} (only : OnlyPoller i s next) (handing : Handing s)
    (hbusy : (s.handover.pollers i).pc ≠ .idle)
    (hinserts : next.handover.memory.inserts = s.handover.memory.inserts)
    (hafter : (next.handover.pollers i).pc ≠ .idle ∧
        next.threads.pollers i = s.threads.pollers i ∨
      (next.handover.pollers i).pc = .idle ∧
        (next.threads.pollers i).pc.inserts = noInserts) : Passes s next [] := by
  have hqueues := handing.queueing i hbusy
  have hinHand : next.inHand = s.inHand := by
    funext k
    by_cases hki : k = i
    · subst hki
      rw [inHand_busy hbusy]
      rcases hafter with ⟨hbusy', -⟩ | ⟨hidle, hnone⟩
      · exact inHand_busy hbusy'
      · rw [inHand_idle hidle]
        exact Threads.held_of_none hnone
    · exact only.inHand hki
  refine ⟨only.handing handing hqueues ?_ ?_, ?_⟩
  · rcases hafter with ⟨-, hsame⟩ | ⟨-, hnone⟩
    · rw [hsame]
      exact handing.packed i
    · exact Threads.packed_of_none hnone
  · intro hbusy'
    rcases hafter with ⟨-, hsame⟩ | ⟨hidle, -⟩
    · rw [hsame]
      exact hqueues
    · exact absurd hidle hbusy'
  · rw [Program.samples, Program.samples, hinHand, hinserts]
    exact (add_zero _).symm

/-- `process_queries` takes the inserts in hand. -/
theorem passes_of_begin {i : Fin n} {host round : Nat} {inserts : Inserts}
    {memory : Handover.Memory n m} {queries : Handover.Queries} (only : OnlyPoller i s next)
    (handing : Handing s) (hpc : (s.threads.pollers i).pc = .processing host round
      (.queueInserts inserts))
    (hidle : (s.handover.pollers i).pc = .idle)
    (hbegin : Handover.beginQueries s.handover.memory inserts = .ok (memory, queries))
    (hmemory : next.handover.memory = memory) (hpollers : next.handover.pollers i = queries)
    (hthreads : next.threads = s.threads) : Passes s next [] := by
  obtain ⟨count, hcount, hallocated, hbusy⟩ := beginQueries_allocates hbegin
  have hqueues : (s.threads.pollers i).pc.queues = true := by rw [hpc]; rfl
  obtain ⟨held, hslots, hroom⟩ := handing.packed i
  rw [hpc] at hslots
  change inserts = slots held at hslots
  rw [hslots] at hcount
  rw [hslots, taken_slots hroom hcount] at hallocated
  have gains : Holdings.Gains next.inHand s.inHand i (samplesIn held) := by
    constructor
    · rw [inHand_idle hidle, inHand_busy (by rw [hpollers]; exact hbusy), zero_add,
        Threads.PollerPc.held, hpc]
      change samplesIn inserts.reduceOption = samplesIn held
      rw [hslots, reduceOption_slots]
    · exact fun k hki => (only.inHand hki).symm
  refine ⟨only.handing handing hqueues ?_ fun _ => ?_, ?_⟩
  · rw [hthreads]
    exact handing.packed i
  · rw [hthreads]
    exact hqueues
  · rw [Program.samples, Program.samples, gains.total_eq, hmemory, hallocated, samplesIn_append,
      add_comm (samplesIn s.handover.memory.inserts), ← add_assoc]
    exact (add_zero _).symm

theorem passes_of_queries {i : Fin n} {garbage : UInt32} (handing : Handing s)
    (hstep : step config (.queries i garbage) s = some next) : Passes s next [] := by
  unfold step at hstep
  split at hstep
  · cases hstep
  · dsimp only at hstep
    split at hstep
    · obtain ⟨inserts, hqueueing, hqueries⟩ := Option.bind_eq_some_iff.mp hstep
      obtain ⟨host, round, hpc⟩ := queueing_eq_some hqueueing
      unfold Program.queriesStep at hqueries
      split at hqueries
      · rename_i hidle
        obtain ⟨handover, hbegins, rfl⟩ := Option.map_eq_some_iff.mp hqueries
        cases Handover.step_effect hbegins with
        | begins _ _ memory queries _ hbegin hnext =>
            subst hnext
            exact passes_of_begin
              ⟨rfl, fun k hki => Function.update_of_ne hki _ _, fun _ _ => rfl⟩ handing hpc hidle
              hbegin rfl (Function.update_self ..) rfl
        | beginFails _ _ fault hnext =>
            subst hnext
            refine passes_of_same handing rfl rfl rfl handing.joined
      · rename_i depth hdepth
        obtain ⟨handover, hpolls, rfl⟩ := Option.map_eq_some_iff.mp hqueries
        rw [Program.finishQueries, hpc] at hpolls ⊢
        dsimp only at hpolls ⊢
        obtain ⟨memory, queries, hmade, hnext⟩ := handoverStep_polls hpolls
        subst hnext
        have hbusy : (s.handover.pollers i).pc ≠ .idle := by
          intro hidle
          cases hdepth.symm.trans hidle
        refine passes_of_busy ⟨rfl, fun k hki => Function.update_of_ne hki _ _,
          fun k hki => Function.update_of_ne hki _ _⟩ handing hbusy
          (Handover.queriesStep_queries hmade).1 (Or.inr ⟨?_, ?_⟩)
        · dsimp only
          rw [Function.update_self]
          exact (queriesStep_idle hmade).mpr ⟨depth, hdepth⟩
        · dsimp only
          rw [Threads.goto_pc]
          rfl
      · rename_i hbusy hrest
        obtain ⟨handover, hpolls, rfl⟩ := Option.map_eq_some_iff.mp hqueries
        obtain ⟨memory, queries, hmade, hnext⟩ := handoverStep_polls hpolls
        subst hnext
        refine passes_of_busy ⟨rfl, fun k hki => Function.update_of_ne hki _ _, fun _ _ => rfl⟩
          handing hbusy (Handover.queriesStep_queries hmade).1 (Or.inl ⟨?_, rfl⟩)
        dsimp only
        rw [Function.update_self]
        intro hidle
        obtain ⟨depth, hdepth⟩ := (queriesStep_idle hmade).mp hidle
        exact hrest depth hdepth
    · cases hstep

theorem handoverStep_database {h h' : Handover.State n m} {j : Fin m} {succeeds : Bool}
    (hstep : Handover.step config (.database j succeeds) h = some h') :
    h'.pollers = h.pollers ∧ h'.memory.inserts = h.memory.inserts := by
  unfold Handover.step at hstep
  split at hstep
  · cases hstep
  · obtain ⟨stepped, hdrain, rfl⟩ := Option.map_eq_some_iff.mp hstep
    exact ⟨rfl, Handover.drainStep_inserts hdrain⟩

theorem passes_of_database {j : Fin m} {answers : Answers} (handing : Handing s)
    (hstep : step config (.database j answers) s = some next) : Passes s next [] := by
  cases step_effect hstep with
  | leaves _ _ _ _ hnext | closes _ _ _ hnext | moves _ _ _ _ _ _ _ hnext =>
      subst hnext
      exact passes_of_same handing rfl rfl rfl handing.joined
  | calls _ _ handover _ hdrain hnext =>
      subst hnext
      cases Handover.step_effect hdrain with
      | drains _ _ _ hdrained =>
          subst hdrained
          exact passes_of_same handing rfl rfl rfl handing.joined
  | drains _ _ handover _ hdatabase hnext =>
      subst hnext
      obtain ⟨hpollers, hinserts⟩ := handoverStep_database hdatabase
      exact passes_of_same handing rfl hpollers hinserts handing.joined

theorem passes_of_main (handing : Handing s)
    (hstep : step config (.main : Label n m) s = some next) : Passes s next [] := by
  unfold step at hstep
  split at hstep
  · cases hstep
  · dsimp only at hstep
    split at hstep
    · unfold Program.mainStep at hstep
      split at hstep
      · split at hstep
        · cases hstep
          exact passes_of_same handing rfl rfl rfl (fun hjoined => nomatch hjoined)
        · cases hstep
      · split at hstep
        · rename_i hreturned
          cases hstep
          exact passes_of_same handing rfl rfl rfl fun _ => hreturned
        · cases hstep
      · rename_i hmain
        split at hstep
        · cases hstep
          exact passes_of_same handing rfl rfl rfl fun _ => handing.joined (Or.inl hmain)
        · cases hstep
      · cases hstep
    · cases hstep

theorem step_passes {label : Label n m} (handing : Handing s)
    (hstep : step config label s = some next) : Passes s next (storedIn (flows label s)) := by
  cases label with
  | threads label =>
      rw [flows, storedIn_stored]
      exact passes_of_threads handing hstep
  | queries i garbage => exact passes_of_queries handing hstep
  | database j answers =>
      rw [flows, storedIn_sends]
      exact passes_of_database handing hstep
  | main => exact passes_of_main handing hstep

end Samples

/-! ## All runs -/

section Runs

variable {n m : Nat} {config : Rtgconf}

structure Pipelined (config : Rtgconf) (o : Observed (Program n m) Flow) : Prop where
  orderly : Orderly o.state
  fated : Handover.Fated o.state.handover
  built : Handover.Built config o.state.handover
  handing : Handing o.state
  sent : List.Forall₂ (SentFor config o.state.handover.memory) (sentIn o.events)
    o.state.handover.memory.executions
  samples : (storedIn o.events : Multiset Push) = o.state.samples

theorem pipelined_keeps (config : Rtgconf) :
    Keeps (Observed.step (step config) flows) (fun _ _ => True)
      (Pipelined config : Observed (Program n m) Flow → Prop) := by
  intro label o after _ pipelined hobserved
  obtain ⟨hstep, hevents⟩ := Observed.step_eq_some.mp hobserved
  have passes := step_passes pipelined.handing hstep
  obtain ⟨inserts, executed, hinserts, hexecutions, hsent⟩ := step_sends pipelined.built hstep
  refine ⟨pipelined.orderly.step hstep, ?_, ?_, passes.handing, ?_, ?_⟩
  · rcases step_handover hstep with hsame | ⟨shared, hshared⟩
    · rw [hsame]
      exact pipelined.fated
    · exact pipelined.fated.step pipelined.orderly.accounted hshared
  · rcases step_handover hstep with hsame | ⟨shared, hshared⟩
    · rw [hsame]
      exact pipelined.built
    · exact pipelined.built.step hshared
  · rw [hevents, sentIn, List.filterMap_append, hexecutions]
    refine List.rel_append ?_ ?_
    · exact pipelined.sent.imp fun _ _ => sentFor_append hinserts
    · exact hsent.imp fun _ _ => sentFor_append hinserts
  · rw [hevents, storedIn, List.filterMap_append, passes.samples, ← pipelined.samples]
    exact (Multiset.coe_add _ _).symm

/-- The threads as they are started, whether or not a stop has been requested. -/
theorem pipelined_start (hqueue : 0 < config.maxDbQueue.toNat) (hosts : List Queryhost)
    (clock : Nat) (nextIteration : Int) (statistics : Threads.Statistics)
    (threadStop fullStop : Bool) :
    Pipelined config (Observed.begin
      { (Program.start config hqueue hosts clock nextIteration statistics : Program n m) with
        threads :=
          { Threads.State.start hosts clock nextIteration statistics with
            threadStopRequested := threadStop
            fullStopRequested := fullStop } }) := by
  have orderly := @orderly_start n m config hosts clock nextIteration statistics hqueue
  refine ⟨⟨orderly.accounted, orderly.idle, orderly.joined⟩,
    Handover.fated_start config.maxDbQueue hqueue,
    Handover.built_start config config.maxDbQueue hqueue, ?_, .nil, ?_⟩
  · exact ⟨fun _ => Threads.packed_of_none rfl, fun _ hbusy => absurd rfl hbusy, nofun⟩
  · symm
    refine (add_zero _).trans (Finset.sum_eq_zero fun i _ => ?_)
    exact (inHand_idle rfl).trans (Threads.held_of_none rfl)

theorem Pipelined.conserved {o : Observed (Program n m) Flow} (pipelined : Pipelined config o) :
    Conserved config o.events o.state := by
  refine ⟨pipelined.sent, pipelined.built.omitted, ?_, pipelined.fated⟩
  rw [pipelined.samples, Program.samples, pipelined.fated.samples]
  rfl

/-- With all threads joined, nothing is in hand of a thread. -/
theorem samplesOf_joined {s : Program n m} (orderly : Orderly s) (handing : Handing s)
    (hmain : s.main = .freeQueue) :
    (∀ i, s.inHand i = 0) ∧
      ∀ fate : Fate n m, fate ∉ ({.queue, .refused, .executed, .failed, .omitted} :
        Finset (Fate n m)) → s.samplesOf fate = 0 := by
  have hreturned := handing.joined (Or.inr hmain)
  have hleft : s.main ≠ .joinDatabases := by
    intro hfirst
    cases hmain.symm.trans hfirst
  have hidle : ∀ i, (s.handover.pollers i).pc = .idle := fun i =>
    handing.idle (by rw [hreturned i]; rfl)
  constructor
  · intro i
    rw [inHand_idle (hidle i)]
    exact Threads.held_of_none (by rw [hreturned i]; rfl)
  · intro fate hfate
    rw [Program.samplesOf]
    cases fate with
    | unhandled i =>
        rw [Handover.State.fates, Handover.Queries.unhandled, hidle i]
        rfl
    | unanswered j =>
        have hdone : (s.handover.databases j).pc = .idle := by
          refine orderly.idle j fun hdraining => ?_
          cases (orderly.joined hleft j).symm.trans hdraining
        rw [Handover.State.fates, Handover.Draining.unanswered, hdone]
        rfl
    | queue | refused | executed | failed | omitted => simp at hfate

/-- In every run, every sample that was stored is in exactly one place, and the
queries that were sent are those of the inserts that were executed.  When
`run_threads` frees the queue, each sample was in an executed insert, or it was
lost with an insert that had no room in the queue, that MySQL refused, that had
no query, or that nobody took out of the queue. -/
theorem samples_conserved {hosts : List Queryhost} {clock : Nat} {nextIteration : Int}
    {statistics : Threads.Statistics} (hqueue : 0 < config.maxDbQueue.toNat)
    {labels : List (Label n m)} {o : Observed (Program n m) Flow}
    (hrun : run (Observed.step (step config) flows) labels
      (Observed.begin (Program.start config hqueue hosts clock nextIteration statistics)) =
        some o) :
    Conserved config o.events o.state ∧
      (o.state.main = .freeQueue → (storedIn o.events : Multiset Push) =
        ∑ fate ∈ {.queue, .refused, .executed, .failed, .omitted}, o.state.samplesOf fate) := by
  have hstart : Pipelined config (Observed.begin
      (Program.start config hqueue hosts clock nextIteration statistics : Program n m)) :=
    pipelined_start hqueue hosts clock nextIteration statistics false false
  have pipelined := (pipelined_keeps config).run
    (guarded_of_labels (fun _ _ _ => trivial) _) hstart hrun
  refine ⟨pipelined.conserved, fun hmain => ?_⟩
  obtain ⟨hhands, hothers⟩ := samplesOf_joined pipelined.orderly pipelined.handing hmain
  rw [pipelined.conserved.samples, Finset.sum_eq_zero fun i _ => hhands i, zero_add]
  exact (Finset.sum_subset (Finset.subset_univ _) fun fate _ hfate => hothers fate hfate).symm

end Runs

/-- A run with three samples in as many inserts.  MySQL refuses the second query. -/
theorem samples_conserved_refusedSecond :
    ∃ o, run (Observed.step (step smallestQueue) flows) refusedSecond
        (Observed.begin gaugesStart) = some o ∧
      (storedIn o.events).length = 3 ∧ (sentIn o.events).map Prod.snd = [true, false, true] ∧
      Conserved smallestQueue o.events o.state ∧
      (storedIn o.events : Multiset Push) =
        ∑ fate ∈ {.queue, .refused, .executed, .failed, .omitted}, o.state.samplesOf fate := by
  have hflow : (run (Observed.step (step smallestQueue) flows) refusedSecond
      (Observed.begin gaugesStart)).map (fun o => (o.state.main, (storedIn o.events).length,
        (sentIn o.events).map Prod.snd)) = some (.freeQueue, 3, [true, false, true]) := by
    decide +kernel
  obtain ⟨o, hrun, hmade⟩ := Option.map_eq_some_iff.mp hflow
  obtain ⟨hmain, hcounts⟩ := Prod.mk.inj hmade
  obtain ⟨hstored, hsent⟩ := Prod.mk.inj hcounts
  obtain ⟨conserved, hjoined⟩ := samples_conserved (by decide) hrun
  exact ⟨o, hrun, hstored, hsent, conserved, hjoined hmain⟩

end ClusteredPoller.RunThreads
