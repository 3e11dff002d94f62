import ClusteredPoller.RunThreads.Pipeline
import ClusteredPoller.Threads.Tables
import Mathlib.Tactic.Abel

/-!
# The rows that are sent

The queries say the rows of the samples in their inserts.  So the rows of all
samples are those of the queries that went through, those of the queries that
MySQL refused, and those of the samples that did not get as far.
-/

namespace ClusteredPoller.RunThreads

open Database Poller
open Handover (Fate)
open Library Library.Transition
open Threads (Spaceless)

section Definitions

variable {n m : Nat}

/-- The rows in the queries with this result. -/
def rowsSent (succeeded : Bool) (sent : List (CString × Bool)) : Multiset Entry :=
  ((sent.filter fun query => query.2 = succeeded).map fun query => entriesIn query.1).sum

/-- The samples that are in hand of a poller, or in an insert that is not done
with. -/
def Program.waiting (s : Program n m) : Multiset Push :=
  ∑ i, s.inHand i + ∑ fate with fate.isEnd = false, s.samplesOf fate

/-- The rows of the samples are those that were sent, and those of samples that
wait or found no room in the queue. -/
structure Recorded (config : Rtgconf) (events : List Flow) (s : Program n m) : Prop where
  decodes : ∀ query ∈ sentIn events, (decodeStatement query.1.chars).isSome = true
  rows : entriesOf config (storedIn events : Multiset Push) =
    rowsSent true (sentIn events) + rowsSent false (sentIn events) +
      entriesOf config (s.samplesOf .refused) + entriesOf config s.waiting

/-- Nothing was stored that cannot be printed. -/
structure Recording (config : Rtgconf) (o : Observed (Program n m) Flow) : Prop where
  pipelined : Pipelined config o
  spaceless : Spaceless o.state.threads.hosts
  printable : ∀ sample ∈ storedIn o.events, Printable sample

end Definitions

/-! ## The rows of the executed inserts -/

section Executed

variable {n m : Nat} {config : Rtgconf} {memory : Handover.Memory n m}

/-- The fate of an insert whose query was executed. -/
def fateOf (succeeded : Bool) : Fate n m := if succeeded then .executed else .failed

theorem fates_of_history (succeeded : Bool) (history : List (Handover.Event n m)) :
    ((history.filterMap Handover.Event.fate).filter fun ended =>
        ended.1 = fateOf succeeded).map Prod.snd =
      ((history.filterMap Handover.Event.execution).filter fun execution =>
        execution.2 = succeeded).map Prod.fst := by
  induction history with
  | nil => rfl
  | cons event history ih =>
      cases event with
      | executed j insert made =>
          cases made with
          | true =>
              cases succeeded with
              | true => exact congrArg (insert :: ·) ih
              | false => exact ih
          | false =>
              cases succeeded with
              | true => exact ih
              | false => exact congrArg (insert :: ·) ih
      | freedByPoller | skipped =>
          cases succeeded with
          | true => exact ih
          | false => exact ih
      | _ => exact ih

theorem ended_executions (memory : Handover.Memory n m) (succeeded : Bool) :
    memory.ended (fateOf succeeded) =
      (memory.executions.filter fun execution => execution.2 = succeeded).map Prod.fst :=
  fates_of_history succeeded memory.history

/-- What is sent for an insert says the rows of its samples. -/
theorem sentFor_entries {sent : CString × Bool} {execution : Nat × Bool}
    (printable : ∀ insert, ∀ sample ∈ memory.samplesAt insert, Printable sample)
    (sentFor : SentFor config memory sent execution) :
    (decodeStatement sent.1.chars).isSome = true ∧
      entriesIn sent.1 = entriesOf config (memory.samplesAt execution.1) := by
  obtain ⟨values, hvalues, hbuild⟩ := Option.map_eq_some_iff.mp sentFor.1
  have hsamples : memory.samplesAt execution.1 = values.samples := by
    rw [Handover.Memory.samplesAt, hvalues]
  have hprintable := printable execution.1
  rw [hsamples] at hprintable ⊢
  exact query_entries hprintable hbuild

theorem rowsSent_executions {sent : List (CString × Bool)} {executions : List (Nat × Bool)}
    (printable : ∀ insert, ∀ sample ∈ memory.samplesAt insert, Printable sample)
    (hsent : List.Forall₂ (SentFor config memory) sent executions) (succeeded : Bool) :
    rowsSent succeeded sent = entriesOf config
      ((((executions.filter fun execution => execution.2 = succeeded).map Prod.fst : List Nat) :
        Multiset Nat).bind memory.samplesAt) := by
  induction hsent with
  | nil => rfl
  | @cons query execution sent executions sentFor _ ih =>
      rw [rowsSent] at ih ⊢
      rw [List.filter_cons, List.filter_cons, ← sentFor.2]
      by_cases hresult : query.2 = succeeded
      · rw [if_pos (decide_eq_true hresult), if_pos (decide_eq_true hresult), List.map_cons,
          List.map_cons, List.sum_cons, ih, ← Multiset.cons_coe, Multiset.cons_bind, entriesOf_add,
          (sentFor_entries printable sentFor).2]
      · rw [if_neg (by simpa using hresult), if_neg (by simpa using hresult)]
        exact ih

theorem sent_decodes {sent : List (CString × Bool)} {executions : List (Nat × Bool)}
    (printable : ∀ insert, ∀ sample ∈ memory.samplesAt insert, Printable sample)
    (hsent : List.Forall₂ (SentFor config memory) sent executions) :
    ∀ query ∈ sent, (decodeStatement query.1.chars).isSome = true := by
  induction hsent with
  | nil => exact nofun
  | cons sentFor _ ih => exact List.forall_mem_cons.mpr ⟨(sentFor_entries printable sentFor).1, ih⟩

/-- Inserts without a query have no rows. -/
theorem omitted_rows (printable : ∀ insert, ∀ sample ∈ memory.samplesAt insert, Printable sample)
    {omitted : List Nat}
    (hnone : ∀ insert ∈ omitted, memory.queryOf config insert = some (.ok none)) :
    entriesOf config ((omitted : Multiset Nat).bind memory.samplesAt) = 0 := by
  induction omitted with
  | nil => rfl
  | cons insert omitted ih =>
      obtain ⟨values, hvalues, hbuild⟩ :=
        Option.map_eq_some_iff.mp (hnone insert List.mem_cons_self)
      have hsamples : memory.samplesAt insert = values.samples := by
        rw [Handover.Memory.samplesAt, hvalues]
      have hprintable := printable insert
      rw [hsamples] at hprintable
      rw [← Multiset.cons_coe, Multiset.cons_bind, entriesOf_add, hsamples,
        omitted_entries hprintable hbuild, zero_add]
      exact ih fun other hother => hnone other (List.mem_cons_of_mem _ hother)

theorem mem_samplesAt {insert : Nat} {sample : Push} (hsample : sample ∈ memory.samplesAt insert) :
    sample ∈ samplesIn memory.inserts := by
  unfold Handover.Memory.samplesAt at hsample
  split at hsample
  · rename_i values hvalues
    obtain ⟨before, after, hinserts⟩ := List.append_of_mem (List.mem_of_getElem? hvalues)
    rw [hinserts, samplesIn_append, samplesIn_cons]
    exact Multiset.mem_add.mpr (Or.inr (Multiset.mem_add.mpr (Or.inl hsample)))
  · exact absurd hsample (Multiset.notMem_zero _)

end Executed

/-! ## All runs -/

section Runs

variable {n m : Nat} {config : Rtgconf}

theorem stores_printable {label : Label n m} {s : Program n m}
    (spaceless : Spaceless s.threads.hosts) (htime : s.threads.time < 2 ^ 63) :
    ∀ sample ∈ storedIn (flows label s), Printable sample := by
  have nothing : ∀ sample ∈ ([] : List Push), Printable sample := fun _ hsample =>
    (List.not_mem_nil hsample).elim
  cases label with
  | threads label =>
      rw [flows, storedIn_stored]
      cases label with
      | poller i meets => exact Threads.storedBy_printable spaceless htime
      | _ => exact nothing
  | database j answers =>
      rw [flows, storedIn_sends]
      exact nothing
  | queries | main => exact nothing

theorem step_hosts {label : Label n m} {s next : Program n m}
    (spaceless : Spaceless s.threads.hosts) (hstep : step config label s = some next) :
    Spaceless next.threads.hosts := by
  cases step_threads hstep with
  | steps _ hthreads => exact Threads.step_spaceless spaceless hthreads
  | queued _ _ _ _ _ _ _ hthreads =>
      rw [hthreads]
      exact spaceless
  | queues _ _ hthreads | database _ _ hthreads | main hthreads =>
      rw [hthreads]
      exact spaceless

theorem recording_keeps (config : Rtgconf) :
    Keeps (Observed.step (step config) flows) (fun _ o => o.state.threads.time < 2 ^ 63)
      (Recording config : Observed (Program n m) Flow → Prop) := by
  intro label o next htime recording hobserved
  obtain ⟨hstep, hevents⟩ := Observed.step_eq_some.mp hobserved
  refine ⟨pipelined_keeps config label o next trivial recording.pipelined hobserved,
    step_hosts recording.spaceless hstep, ?_⟩
  rw [hevents, storedIn, List.filterMap_append]
  intro sample hsample
  rcases List.mem_append.mp hsample with hbefore | hnew
  · exact recording.printable sample hbefore
  · exact stores_printable recording.spaceless htime sample hnew

theorem recording_start (hqueue : 0 < config.maxDbQueue.toNat) {hosts : List Queryhost}
    (spaceless : Spaceless hosts) (clock : Nat) (nextIteration : Int)
    (statistics : Threads.Statistics) (threadStop fullStop : Bool) :
    Recording config (Observed.begin
      { (Program.start config hqueue hosts clock nextIteration statistics : Program n m) with
        threads :=
          { Threads.State.start hosts clock nextIteration statistics with
            threadStopRequested := threadStop
            fullStopRequested := fullStop } }) :=
  ⟨pipelined_start hqueue hosts clock nextIteration statistics threadStop fullStop, spaceless,
    nofun⟩

/-- The samples by what has become of them. -/
theorem Conserved.samples_parted {events : List Flow} {s : Program n m}
    (conserved : Conserved config events s) :
    (storedIn events : Multiset Push) = s.samplesOf .executed + s.samplesOf .failed +
      s.samplesOf .refused + s.waiting + s.samplesOf .omitted := by
  have hends : (Finset.univ.filter fun fate : Fate n m => ¬ fate.isEnd = false) =
      {.refused, .executed, .failed, .omitted} := by
    ext fate
    cases fate <;> simp [Fate.isEnd]
  rw [conserved.samples,
    ← Finset.sum_filter_add_sum_filter_not _ fun fate : Fate n m => fate.isEnd = false, hends,
    Finset.sum_insert (by simp), Finset.sum_insert (by simp), Finset.sum_insert (by simp),
    Finset.sum_singleton, Program.waiting]
  abel

theorem Recording.recorded {o : Observed (Program n m) Flow} (recording : Recording config o) :
    Recorded config o.events o.state := by
  have pipelined := recording.pipelined
  have conserved := pipelined.conserved
  have printable : ∀ insert, ∀ sample ∈ o.state.handover.memory.samplesAt insert,
      Printable sample := by
    intro insert sample hsample
    refine recording.printable sample (Multiset.mem_coe.mp ?_)
    rw [pipelined.samples]
    exact Multiset.mem_add.mpr (Or.inr (mem_samplesAt hsample))
  have hrows : ∀ succeeded, rowsSent succeeded (sentIn o.events) =
      entriesOf config (o.state.samplesOf (fateOf succeeded)) := by
    intro succeeded
    rw [rowsSent_executions printable conserved.sent, Program.samplesOf,
      Handover.fates_of_isEnd _ (by cases succeeded <;> rfl), ended_executions]
  constructor
  · exact sent_decodes printable conserved.sent
  · have homitted : entriesOf config (o.state.samplesOf .omitted) = 0 :=
      omitted_rows printable conserved.omitted
    rw [conserved.samples_parted, entriesOf_add, entriesOf_add, entriesOf_add, entriesOf_add,
      hrows true, hrows false, homitted, add_zero]
    rfl

end Runs

end ClusteredPoller.RunThreads
