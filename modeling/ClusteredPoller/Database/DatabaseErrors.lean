import ClusteredPoller.Database.ProcessQueue
import ClusteredPoller.Library.Outcome
import ClusteredPoller.Queue.ClbufRefinement

/-!
# Database errors

An insert leaves the queue before its query is made and is freed afterwards,
whatever the result, so its data survives exactly when the query succeeds.
-/

namespace ClusteredPoller.Database

open Library Library.Outcome Poller Queue
open Library.BoundedFifo (Call Fifo)

/-- The insert is one of those that the queue stores. -/
def Queued (queue : Clbuf Clinsert) (insert : Clinsert) : Prop :=
  ∃ items, queue.Stores items ∧ insert ∈ items

/-- Every popped insert with a query was executed, or is still in the queue. -/
def KeepsData (drain : Drain) : Prop :=
  ∀ insert query succeeded, DrainEvent.queried insert query succeeded ∈ drain.history →
    succeeded = true ∨ Queued drain.queue insert

/-- The results of the queries, in order. -/
def resultsOf (history : List DrainEvent) : List Bool :=
  history.filterMap fun event =>
    match event with
    | .queried _ _ succeeded => some succeeded
    | _ => none

theorem mem_resultsOf {history : List DrainEvent} {succeeded : Bool} :
    succeeded ∈ resultsOf history ↔
      ∃ insert query, DrainEvent.queried insert query succeeded ∈ history := by
  rw [resultsOf, List.mem_filterMap]
  constructor
  · rintro ⟨event, hevent, hresult⟩
    cases event with
    | queried insert query result =>
        cases hresult
        exact ⟨insert, query, hevent⟩
    | skipped insert => cases hresult
    | committed => cases hresult
  · rintro ⟨insert, query, hevent⟩
    exact ⟨_, hevent, rfl⟩

namespace Drain

/-- The history has the results of the queries made so far. -/
def Answered (around : Surroundings) (drain : Drain) : Prop :=
  resultsOf drain.history = (List.range drain.queries).map around.succeeds

section Steps

variable {around : Surroundings} {config : Rtgconf} {drain : Drain}

theorem record_answered (answered : drain.Answered around) {event : DrainEvent}
    (hevent : resultsOf [event] = []) : (drain.record event).Answered around := by
  change resultsOf (drain.history ++ [event]) = _
  rw [resultsOf, List.filterMap_append]
  change resultsOf drain.history ++ resultsOf [event] = _
  rw [hevent, List.append_nil]
  exact answered

theorem mysqlQuery_answered (answered : drain.Answered around) (insert : Clinsert)
    (query : CString) : (drain.mysqlQuery around insert query).Answered around := by
  change resultsOf (drain.history ++ [_]) = (List.range (drain.queries + 1)).map around.succeeds
  rw [resultsOf, List.filterMap_append, List.range_succ, List.map_append]
  exact congrArg (· ++ [around.succeeds drain.queries]) answered

theorem commitIf_cases (due : Bool) (drain : Drain) :
    drain.commitIf due = drain ∨ drain.commitIf due = drain.record .committed := by
  cases due with
  | true => exact Or.inr rfl
  | false => exact Or.inl rfl

/-- A commit changes the history only. -/
theorem commitIf_queue (due : Bool) (drain : Drain) :
    (drain.commitIf due).queue = drain.queue ∧ (drain.commitIf due).queries = drain.queries := by
  rcases commitIf_cases due drain with hsame | hcommit
  · rw [hsame]
    exact ⟨rfl, rfl⟩
  · rw [hcommit]
    exact ⟨rfl, rfl⟩

theorem commitIf_answered (answered : drain.Answered around) (due : Bool) :
    (drain.commitIf due).Answered around := by
  rcases commitIf_cases due drain with hsame | hcommit
  · rw [hsame]
    exact answered
  · rw [hcommit]
    exact record_answered answered rfl

/-- What a turn can do: nothing, if another thread has emptied the queue; skip
an insert without a query; or query. -/
theorem turn_cases {next : Drain} (hturn : drain.turn around config = .ok next) :
    ∃ handled : Drain, next = handled.commitAtInterval ∧
      let waiting := drain.awaitQueue around
      let popped := { waiting with queue := (clbufPop waiting.queue).2 }
      ((clbufPop waiting.queue).1 = none ∧ handled = popped) ∨
      ∃ insert, (clbufPop waiting.queue).1 = some insert ∧
        ((buildInsertQuery insert config = .ok none ∧ handled = popped.record (.skipped insert)) ∨
          ∃ query, buildInsertQuery insert config = .ok (some query) ∧
            handled = popped.mysqlQuery around insert query) := by
  obtain ⟨handled, hhandled, hnext⟩ := bind_eq_ok.mp hturn
  cases hnext
  refine ⟨handled, rfl, ?_⟩
  cases hpopped : (clbufPop (drain.awaitQueue around).queue).1 with
  | none =>
      rw [hpopped] at hhandled
      cases hhandled
      exact Or.inl ⟨hpopped, rfl⟩
  | some insert =>
      rw [hpopped] at hhandled
      refine Or.inr ⟨insert, hpopped, ?_⟩
      obtain ⟨built, hbuilt, hresult⟩ := bind_eq_ok.mp hhandled
      cases built with
      | none =>
          cases hresult
          exact Or.inl ⟨hbuilt, rfl⟩
      | some query =>
          cases hresult
          exact Or.inr ⟨query, hbuilt, rfl⟩

theorem turn_answered (answered : drain.Answered around) {next : Drain}
    (hturn : drain.turn around config = .ok next) : next.Answered around := by
  obtain ⟨handled, rfl, hcases⟩ := turn_cases hturn
  refine commitIf_answered ?_ _
  rcases hcases with ⟨_, rfl⟩ | ⟨insert, _, ⟨_, rfl⟩ | ⟨query, _, rfl⟩⟩
  · exact answered
  · exact record_answered answered rfl
  · exact mysqlQuery_answered answered insert query

/-- The loop goes on after a turn, or ends where it counted an empty queue. -/
theorem loop_cases {fuel : Nat} {final : Drain}
    (hloop : drain.loop around config (fuel + 1) = .ok (some final)) :
    let counted := drain.awaitQueue around
    (clbufCountUsed counted.queue > 0 ∧ ∃ next, counted.turn around config = .ok next ∧
      next.loop around config fuel = .ok (some final)) ∨
    (¬ clbufCountUsed counted.queue > 0 ∧ final = counted) := by
  by_cases hused : clbufCountUsed (drain.awaitQueue around).queue > 0
  · rw [loop, if_pos hused] at hloop
    exact Or.inl ⟨hused, bind_eq_ok.mp hloop⟩
  · rw [loop, if_neg hused] at hloop
    cases hloop
    exact Or.inr ⟨hused, rfl⟩

theorem loop_answered {fuel : Nat} (answered : drain.Answered around) {final : Drain}
    (hloop : drain.loop around config fuel = .ok (some final)) : final.Answered around := by
  induction fuel generalizing drain with
  | zero => cases hloop
  | succ fuel ih =>
      have hcounted : (drain.awaitQueue around).Answered around := answered
      rcases loop_cases hloop with ⟨_, next, hturn, hrest⟩ | ⟨_, rfl⟩
      · exact ih (turn_answered hcounted hturn) hrest
      · exact hcounted

/-! ## The queue under other threads' calls -/

theorem countUsed_pos_iff {queue : Clbuf Clinsert} {items : List Clinsert}
    (stores : queue.Stores items) : clbufCountUsed queue > 0 ↔ items ≠ [] := by
  change 0 < clbufCountUsed queue ↔ _
  rw [UInt32.lt_iff_toNat_lt, Clbuf.countUsed_eq stores]
  exact List.length_pos_iff

/-- The queue stores some list. -/
def StoresSome (queue : Clbuf Clinsert) : Prop :=
  ∃ (capacity : Nat) (fifo : Fifo Clinsert capacity), queue.Refines fifo

theorem storesSome_calls {queue : Clbuf Clinsert} (storesSome : StoresSome queue)
    (calls : List (Call Clinsert)) :
    StoresSome (Machine.run Clbuf.perform queue calls).2 := by
  obtain ⟨capacity, fifo, refines⟩ := storesSome
  exact ⟨capacity, _, ((Clbuf.perform_simulates Clinsert capacity).run refines calls).2⟩

theorem turn_storesSome (storesSome : StoresSome drain.queue) {next : Drain}
    (hturn : drain.turn around config = .ok next) : StoresSome next.queue := by
  obtain ⟨capacity, fifo, refines⟩ :=
    storesSome_calls storesSome (around.others drain.queueCalls)
  have hpopped : StoresSome (clbufPop (drain.awaitQueue around).queue).2 :=
    ⟨capacity, _, (Clbuf.pop_refines refines).2⟩
  obtain ⟨handled, rfl, hcases⟩ := turn_cases hturn
  rw [commitAtInterval, (commitIf_queue _ handled).1]
  rcases hcases with ⟨_, rfl⟩ | ⟨insert, _, ⟨_, rfl⟩ | ⟨query, _, rfl⟩⟩
  · exact hpopped
  · exact hpopped
  · exact hpopped

/-- A loop that ends has counted an empty queue. -/
theorem loop_empties {fuel : Nat} (storesSome : StoresSome drain.queue) {final : Drain}
    (hloop : drain.loop around config fuel = .ok (some final)) : final.queue.Stores [] := by
  induction fuel generalizing drain with
  | zero => cases hloop
  | succ fuel ih =>
      have hcounted : StoresSome (drain.awaitQueue around).queue :=
        storesSome_calls storesSome (around.others drain.queueCalls)
      rcases loop_cases hloop with ⟨_, next, hturn, hrest⟩ | ⟨hzero, rfl⟩
      · exact ih (turn_storesSome hcounted hturn) hrest
      · obtain ⟨capacity, fifo, refines⟩ := hcounted
        have hempty : fifo.items = [] :=
          Classical.byContradiction fun hne => hzero ((countUsed_pos_iff refines.stores).mpr hne)
        exact hempty ▸ refines.stores

end Steps

theorem stores_unique {queue : Clbuf Clinsert} {items others : List Clinsert}
    (stores : queue.Stores items) (storesOthers : queue.Stores others) (hnil : items = []) :
    others = [] := by
  have hcount := Clbuf.countUsed_eq stores
  rw [Clbuf.countUsed_eq storesOthers, hnil] at hcount
  exact List.eq_nil_of_length_eq_zero hcount

/-- A drain that has returned. -/
structure Returned (around : Surroundings) (final : Drain) : Prop where
  answered : final.Answered around
  empty : final.queue.Stores []

/-- A call returns what its loop ended with, after the last commit. -/
theorem loop_of_returned {around : Surroundings} {config : Rtgconf} {queue : Clbuf Clinsert}
    {fuel : Nat} {final : Drain}
    (hreturn : processDatabaseQueue around config fuel queue = .ok (some final)) :
    ∃ ended, (start queue).loop around config fuel = .ok (some ended) ∧
      final = ended.commitAtEnd := by
  obtain ⟨result, hended, hfinal⟩ := bind_eq_ok.mp hreturn
  cases result with
  | none => cases hfinal
  | some ended =>
      cases hfinal
      exact ⟨ended, hended, rfl⟩

theorem returned {around : Surroundings} {config : Rtgconf} {queue : Clbuf Clinsert}
    {items : List Clinsert} (stores : queue.Stores items) {fuel : Nat} {final : Drain}
    (hreturn : processDatabaseQueue around config fuel queue = .ok (some final)) :
    final.Returned around := by
  obtain ⟨ended, hended, rfl⟩ := loop_of_returned hreturn
  have storesSome : StoresSome (start queue).queue :=
    ⟨queue.allocatedSize.toNat, ⟨items, stores.fits⟩, stores, rfl⟩
  have hstart : (start queue).Answered around := rfl
  refine ⟨commitIf_answered (loop_answered hstart hended) _, ?_⟩
  rw [commitAtEnd, (commitIf_queue _ ended).1]
  exact loop_empties storesSome hended

/-- With an empty queue, the data of the popped inserts survives exactly when
all their queries succeeded. -/
theorem Returned.keepsData_iff {around : Surroundings} {final : Drain}
    (returned : final.Returned around) :
    KeepsData final ↔ ∀ number < final.queries, around.succeeds number = true := by
  have hall : (∀ succeeded ∈ resultsOf final.history, succeeded = true) ↔
      ∀ number < final.queries, around.succeeds number = true := by
    rw [returned.answered, List.forall_mem_map]
    simp only [List.mem_range]
  rw [← hall]
  constructor
  · intro keeps succeeded hmem
    obtain ⟨insert, query, hevent⟩ := mem_resultsOf.mp hmem
    rcases keeps insert query succeeded hevent with hsuccess | ⟨items, stores, hinsert⟩
    · exact hsuccess
    · rw [stores_unique returned.empty stores rfl] at hinsert
      cases hinsert
  · intro hsucceeded insert query succeeded hevent
    exact Or.inl (hsucceeded succeeded (mem_resultsOf.mpr ⟨insert, query, hevent⟩))

/-! ## A drain without other threads -/

/-- Only the drain itself calls the queue. -/
def alone (succeeds : Nat → Bool) : Surroundings where
  succeeds := succeeds
  others _ := []

/-- `build_insert_query` gives a query for the insert. -/
def hasQuery (config : Rtgconf) (insert : Clinsert) : Bool :=
  match buildInsertQuery insert config with
  | .ok (some _) => true
  | _ => false

section Alone

variable {succeeds : Nat → Bool} {config : Rtgconf} {drain : Drain} {insert : Clinsert}
  {items : List Clinsert}

/-- A turn takes the oldest insert and makes its query, if it has one. -/
theorem alone_turn (stores : drain.queue.Stores (insert :: items)) {next : Drain}
    (hturn : drain.turn (alone succeeds) config = .ok next) :
    next.queue.Stores items ∧
      next.queries = drain.queries + (if hasQuery config insert then 1 else 0) := by
  obtain ⟨holdest, hrest⟩ := Clbuf.pop_oldest stores
  obtain ⟨handled, rfl, hcases⟩ := turn_cases hturn
  have hqueue : (drain.awaitQueue (alone succeeds)).queue = drain.queue := rfl
  dsimp only at hcases
  rw [hqueue, holdest] at hcases
  rw [commitAtInterval, (commitIf_queue _ handled).1, (commitIf_queue _ handled).2]
  rcases hcases with ⟨himpossible, _⟩ | ⟨other, heq, hother⟩
  · cases himpossible
  · cases heq
    rcases hother with ⟨hnone, rfl⟩ | ⟨query, hsome, rfl⟩
    · refine ⟨hrest, ?_⟩
      rw [hasQuery, hnone]
      rfl
    · refine ⟨hrest, ?_⟩
      rw [hasQuery, hsome]
      rfl

/-- A turn for an insert whose query can be built does not fail. -/
theorem alone_turn_ok (stores : drain.queue.Stores (insert :: items))
    (hbuilds : ∃ query, buildInsertQuery insert config = .ok query) :
    ∃ next, drain.turn (alone succeeds) config = .ok next := by
  obtain ⟨holdest, _⟩ := Clbuf.pop_oldest stores
  obtain ⟨query, hquery⟩ := hbuilds
  have hqueue : (drain.awaitQueue (alone succeeds)).queue = drain.queue := rfl
  unfold turn
  dsimp only
  rw [hqueue, holdest, handlePopped, handleInsert, hquery]
  cases query <;> exact ⟨_, rfl⟩

/-- The queries that a whole drain makes are those of the queued inserts. -/
theorem alone_loop {fuel : Nat} (stores : drain.queue.Stores items) {final : Drain}
    (hloop : drain.loop (alone succeeds) config fuel = .ok (some final)) :
    final.queries = drain.queries + items.countP (hasQuery config) := by
  have hqueue : (drain.awaitQueue (alone succeeds)).queue = drain.queue := rfl
  induction items generalizing fuel drain with
  | nil =>
      cases fuel with
      | zero => cases hloop
      | succ fuel =>
          rcases loop_cases hloop with ⟨hused, _⟩ | ⟨_, rfl⟩
          · exact absurd rfl ((countUsed_pos_iff stores).mp hused)
          · rfl
  | cons insert items ih =>
      cases fuel with
      | zero => cases hloop
      | succ fuel =>
          rcases loop_cases hloop with ⟨_, next, hturn, hrest⟩ | ⟨hzero, _⟩
          · have hstores : (drain.awaitQueue (alone succeeds)).queue.Stores (insert :: items) :=
              stores
            obtain ⟨hnext, hqueries⟩ := alone_turn hstores hturn
            have hcounted : (drain.awaitQueue (alone succeeds)).queries = drain.queries := rfl
            rw [ih hnext hrest rfl, hqueries, hcounted, List.countP_cons]
            omega
          · exact absurd ((countUsed_pos_iff stores).mpr (List.cons_ne_nil _ _)) hzero

/-- If the queries of all queued inserts can be built, the loop ends after one
turn for each of them. -/
theorem alone_loop_ends (stores : drain.queue.Stores items)
    (hbuilds : ∀ insert ∈ items, ∃ query, buildInsertQuery insert config = .ok query) :
    ∃ final, ∀ fuel, items.length < fuel →
      drain.loop (alone succeeds) config fuel = .ok (some final) := by
  induction items generalizing drain with
  | nil =>
      refine ⟨drain.awaitQueue (alone succeeds), fun fuel hfuel => ?_⟩
      cases fuel with
      | zero => cases hfuel
      | succ fuel =>
          rw [loop]
          exact if_neg fun hused => (countUsed_pos_iff stores).mp hused rfl
  | cons insert items ih =>
      have hstores : (drain.awaitQueue (alone succeeds)).queue.Stores (insert :: items) := stores
      obtain ⟨next, hturn⟩ :=
        @alone_turn_ok succeeds _ _ _ _ hstores (hbuilds insert List.mem_cons_self)
      obtain ⟨final, hfinal⟩ := ih (alone_turn hstores hturn).1
        fun other hother => hbuilds other (List.mem_cons_of_mem _ hother)
      refine ⟨final, fun fuel hfuel => ?_⟩
      cases fuel with
      | zero => cases hfuel
      | succ fuel =>
          rw [loop, if_pos ((countUsed_pos_iff hstores).mpr (List.cons_ne_nil _ _)), hturn, ok_bind]
          exact hfinal fuel (Nat.lt_of_succ_lt_succ hfuel)

end Alone

end Drain

open Drain

/-- A drain that meets errors keeps the data exactly when none of the queries
of the queued inserts fails; and it returns, after a turn for each insert, if
all these queries can be built. -/
theorem drain_keeps_data_iff {queue : Clbuf Clinsert} {items : List Clinsert}
    (stores : queue.Stores items) (config : Rtgconf) (succeeds : Nat → Bool) :
    (∀ fuel final, processDatabaseQueue (alone succeeds) config fuel queue = .ok (some final) →
      (KeepsData final ↔
        ∀ number < items.countP (hasQuery config), succeeds number = true)) ∧
    ((∀ insert ∈ items, ∃ query, buildInsertQuery insert config = .ok query) →
      ∃ final, ∀ fuel, items.length < fuel →
        processDatabaseQueue (alone succeeds) config fuel queue = .ok (some final)) := by
  constructor
  · intro fuel final hreturn
    rw [(returned stores hreturn).keepsData_iff]
    obtain ⟨ended, hended, rfl⟩ := loop_of_returned hreturn
    have hqueries := alone_loop stores hended
    rw [commitAtEnd, (commitIf_queue _ ended).2, hqueries]
    change (∀ number < 0 + _, _) ↔ _
    rw [Nat.zero_add]
    rfl
  · intro hbuilds
    obtain ⟨ended, hended⟩ := @alone_loop_ends succeeds config (Drain.start queue) _ stores hbuilds
    refine ⟨ended.commitAtEnd, fun fuel hfuel => ?_⟩
    rw [processDatabaseQueue, hended fuel hfuel]
    rfl

/-- An insert of one value, and a queue with nothing else in it. -/
def oneInsert : Clinsert where
  table := some (CString.ofString "ifInOctets_276")
  values := [⟨2816, 1500, 5, 1300, 0⟩]
  allocatedSpace := 8

def oneInsertQueue : Clbuf Clinsert :=
  (clbufPush (clbufCreate Clinsert 100 (by decide)) (some oneInsert)).2

theorem oneInsertQueue_stores : oneInsertQueue.Stores [oneInsert] :=
  (Clbuf.push_room (Clbuf.stores_create 100 (by decide)) (by decide) oneInsert).2

/-- The database restarts during the drain, and the insert is gone. -/
theorem failed_query_loses_data :
    ∃ final, processDatabaseQueue (alone fun _ => false) defaultRtgconf 2 oneInsertQueue =
        .ok (some final) ∧ ¬ KeepsData final := by
  refine ⟨_, rfl, fun keeps => ?_⟩
  have hreturned :=
    @returned (alone fun _ => false) defaultRtgconf _ _ oneInsertQueue_stores 2 _ rfl
  exact absurd (hreturned.keepsData_iff.mp keeps 0 (by decide)) Bool.false_ne_true

def secondInsert : Clinsert := { oneInsert with values := [⟨2817, 1500, 9, 2400, 0⟩] }

/-- An insert with values of two times. -/
def thirdInsert : Clinsert :=
  { oneInsert with values := [⟨2818, 1500, 7, 2100, 0⟩, ⟨2818, 1800, 8, 2400, 0⟩] }

def threeInserts : List Clinsert := [oneInsert, secondInsert, thirdInsert]

def twoInsertsQueue : Clbuf Clinsert := (clbufPush oneInsertQueue (some secondInsert)).2

def threeInsertsQueue : Clbuf Clinsert := (clbufPush twoInsertsQueue (some thirdInsert)).2

theorem threeInsertsQueue_stores : threeInsertsQueue.Stores threeInserts := by
  have htwo : twoInsertsQueue.Stores [oneInsert, secondInsert] :=
    (Clbuf.push_room oneInsertQueue_stores (by decide +kernel) secondInsert).2
  exact (Clbuf.push_room htwo (by decide +kernel) thirdInsert).2

theorem threeInserts_build :
    ∀ insert ∈ threeInserts, ∃ query, buildInsertQuery insert defaultRtgconf = .ok query := by
  intro insert hinsert
  have hbuilds : ∀ insert ∈ threeInserts,
      (buildInsertQuery insert defaultRtgconf).toOption.isSome = true := by
    decide +kernel
  have hbuild := hbuilds insert hinsert
  cases hquery : buildInsertQuery insert defaultRtgconf with
  | ok query => exact ⟨query, rfl⟩
  | error fault =>
      rw [hquery] at hbuild
      exact absurd hbuild Bool.false_ne_true

/-- When the second of the three queries fails, its insert is gone; when the
database stays up, nothing is. -/
theorem drain_keeps_data_three :
    (∃ final, processDatabaseQueue (alone (· ≠ 1)) defaultRtgconf 4 threeInsertsQueue =
        .ok (some final) ∧ ¬ KeepsData final) ∧
      ∃ final, processDatabaseQueue (alone fun _ => true) defaultRtgconf 4 threeInsertsQueue =
        .ok (some final) ∧ KeepsData final := by
  constructor
  · obtain ⟨hkeeps, hreturns⟩ :=
      drain_keeps_data_iff threeInsertsQueue_stores defaultRtgconf (· ≠ 1)
    obtain ⟨final, hfinal⟩ := hreturns threeInserts_build
    have hreturn := hfinal 4 (by decide)
    refine ⟨final, hreturn, fun keeps => ?_⟩
    have hsecond := (hkeeps 4 final hreturn).mp keeps 1 (by decide +kernel)
    exact absurd hsecond (by decide)
  · obtain ⟨hkeeps, hreturns⟩ :=
      drain_keeps_data_iff threeInsertsQueue_stores defaultRtgconf fun _ => true
    obtain ⟨final, hfinal⟩ := hreturns threeInserts_build
    have hreturn := hfinal 4 (by decide)
    exact ⟨final, hreturn, (hkeeps 4 final hreturn).mpr fun _ _ => rfl⟩

end ClusteredPoller.Database
