import ClusteredPoller.Database.DatabaseErrors

/-!
# Commits

The counter that makes `process_database_queue` commit advances on successful
queries only, so it stands still on failures, on inserts without a query, and
when another thread has emptied the queue.  Between two turns the queries that
are not committed are at most those counted since the last multiple of the
commit interval.
-/

namespace ClusteredPoller.Database

open Library Library.Outcome Poller Queue

/-- The number of successful queries. -/
def successes (history : List DrainEvent) : Nat := (resultsOf history).count true

/-- The successful queries without a commit, after one more event. -/
def DrainEvent.pending (count : Nat) : DrainEvent → Nat
  | .queried _ _ true => count + 1
  | .queried _ _ false => count
  | .skipped _ => count
  | .committed => 0

/-- The number of successful queries that no commit follows. -/
def uncommitted (history : List DrainEvent) : Nat := history.foldl DrainEvent.pending 0

/-- At no time were there more uncommitted queries than the interval allows. -/
def WithinInterval (history : List DrainEvent) : Prop :=
  ∀ earlier, earlier <+: history → uncommitted earlier ≤ commitInterval.toNat

theorem successes_append (history : List DrainEvent) (event : DrainEvent) :
    successes (history ++ [event]) = successes history + successes [event] := by
  rw [successes, resultsOf, List.filterMap_append, List.count_append]
  rfl

theorem uncommitted_append (history : List DrainEvent) (event : DrainEvent) :
    uncommitted (history ++ [event]) = event.pending (uncommitted history) := by
  rw [uncommitted, List.foldl_append]
  rfl

theorem withinInterval_append {history : List DrainEvent} (within : WithinInterval history)
    {event : DrainEvent} (hevent : event.pending (uncommitted history) ≤ commitInterval.toNat) :
    WithinInterval (history ++ [event]) := by
  intro earlier hearlier
  rcases List.prefix_concat_iff.mp hearlier with rfl | hprefix
  · rw [uncommitted_append]
    exact hevent
  · exact within earlier hprefix

namespace Drain

/-- A drain in its loop, in front of the next turn. -/
inductive Reached (around : Surroundings) (config : Rtgconf) (queue : Clbuf Clinsert) :
    Drain → Prop where
  | start : Reached around config queue (Drain.start queue)
  | turn {drain next : Drain} (reached : Reached around config queue drain)
      (hused : clbufCountUsed (drain.awaitQueue around).queue > 0)
      (hturn : (drain.awaitQueue around).turn around config = .ok next) :
      Reached around config queue next

/-- The counter has not wrapped, and the interval is kept. -/
structure Counted (drain : Drain) : Prop where
  counted : drain.queryCounter.toNat = successes drain.history
  within : WithinInterval drain.history

/-- What is not committed was counted since a multiple of the interval. -/
def Settled (drain : Drain) : Prop :=
  uncommitted drain.history ≤ drain.queryCounter.toNat % commitInterval.toNat

/-- The condition of the commit in the loop. -/
def Due (drain : Drain) : Prop :=
  0 < drain.queryCounter.toNat ∧ drain.queryCounter.toNat % commitInterval.toNat = 0

variable {around : Surroundings} {config : Rtgconf} {queue : Clbuf Clinsert} {drain : Drain}

theorem Counted.record (counted : drain.Counted) {event : DrainEvent}
    (hresult : successes [event] = 0)
    (hpending : event.pending (uncommitted drain.history) ≤ uncommitted drain.history) :
    (drain.record event).Counted := by
  refine ⟨?_, ?_⟩
  · change _ = successes (drain.history ++ [event])
    rw [successes_append, hresult]
    exact counted.counted
  · exact withinInterval_append counted.within
      (Nat.le_trans hpending (counted.within _ (List.prefix_refl _)))

theorem Counted.commitIf (counted : drain.Counted) (due : Bool) : (drain.commitIf due).Counted := by
  rcases commitIf_cases due drain with hsame | hcommit
  · rw [hsame]
    exact counted
  · rw [hcommit]
    exact counted.record rfl (Nat.zero_le _)

theorem mysqlQuery_successes (insert : Clinsert) (query : CString) :
    successes (drain.mysqlQuery around insert query).history =
      successes drain.history + (if around.succeeds drain.queries then 1 else 0) := by
  change successes (drain.history ++ [_]) = _
  rw [successes_append]
  cases around.succeeds drain.queries <;> rfl

theorem mysqlQuery_uncommitted (insert : Clinsert) (query : CString) :
    uncommitted (drain.mysqlQuery around insert query).history =
      uncommitted drain.history + (if around.succeeds drain.queries then 1 else 0) := by
  change uncommitted (drain.history ++ [_]) = _
  rw [uncommitted_append]
  cases around.succeeds drain.queries <;> rfl

/-- The counter follows a query unless the query wraps it around. -/
theorem mysqlQuery_counter (insert : Clinsert) (query : CString)
    (counted : drain.queryCounter.toNat = successes drain.history)
    (hfits : successes (drain.mysqlQuery around insert query).history < 2 ^ 32) :
    (drain.mysqlQuery around insert query).queryCounter.toNat =
      successes (drain.mysqlQuery around insert query).history := by
  rw [mysqlQuery_successes] at hfits ⊢
  change (if around.succeeds drain.queries then drain.queryCounter + 1
    else drain.queryCounter).toNat = _
  cases hresult : around.succeeds drain.queries with
  | false => exact counted
  | true =>
      rw [hresult, if_pos rfl, ← counted] at hfits
      rw [if_pos rfl, if_pos rfl, UInt32.toNat_add, ← counted]
      exact Nat.mod_eq_of_lt hfits

/-- A query leaves at most an interval uncommitted, and less than that unless a
commit is due. -/
theorem Counted.mysqlQuery (counted : drain.Counted) (settled : drain.Settled) (insert : Clinsert)
    (query : CString) (hfits : successes (drain.mysqlQuery around insert query).history < 2 ^ 32) :
    (drain.mysqlQuery around insert query).Counted ∧
      ((drain.mysqlQuery around insert query).Due ∨
        (drain.mysqlQuery around insert query).Settled) := by
  have hcounter := mysqlQuery_counter insert query counted.counted hfits
  have hsuccesses := @mysqlQuery_successes around drain insert query
  have huncommitted := @mysqlQuery_uncommitted around drain insert query
  have hlt := Nat.mod_lt drain.queryCounter.toNat (show 0 < commitInterval.toNat by decide)
  have hsettled : uncommitted drain.history ≤ _ := settled
  have hbefore := counted.counted
  have hinterval : commitInterval.toNat = 100 := rfl
  refine ⟨⟨hcounter, withinInterval_append counted.within ?_⟩, ?_⟩
  · rw [← uncommitted_append]
    change uncommitted (drain.mysqlQuery around insert query).history ≤ _
    rw [huncommitted]
    split <;> omega
  · unfold Due Settled
    rw [hcounter, hsuccesses, huncommitted, ← hbefore, hinterval]
    rw [hinterval] at hsettled hlt
    split <;> omega

/-- The commit in the loop settles what was due. -/
theorem Counted.commitAtInterval (counted : drain.Counted) (hdue : drain.Due ∨ drain.Settled) :
    drain.commitAtInterval.Counted ∧ drain.commitAtInterval.Settled := by
  refine ⟨counted.commitIf _, ?_⟩
  unfold Drain.commitAtInterval
  rcases commitIf_cases (drain.queryCounter > 0 && drain.queryCounter % commitInterval = 0) drain
    with hsame | hcommit
  · rcases hdue with ⟨hpositive, hmultiple⟩ | hsettled
    · have hcondition : (drain.queryCounter > 0 && drain.queryCounter % commitInterval = 0) =
          true := by
        rw [Bool.and_eq_true, decide_eq_true_eq, decide_eq_true_eq]
        refine ⟨UInt32.lt_iff_toNat_lt.mpr hpositive, UInt32.toNat_inj.mp ?_⟩
        rw [UInt32.toNat_mod]
        exact hmultiple
      rw [hcondition]
      change uncommitted (drain.history ++ [.committed]) ≤ _
      rw [uncommitted_append]
      exact Nat.zero_le _
    · rw [hsame]
      exact hsettled
  · rw [hcommit]
    change uncommitted (drain.history ++ [.committed]) ≤ _
    rw [uncommitted_append]
    exact Nat.zero_le _

theorem commitIf_successes (due : Bool) (drain : Drain) :
    successes (drain.commitIf due).history = successes drain.history := by
  rcases commitIf_cases due drain with hsame | hcommit
  · rw [hsame]
  · rw [hcommit]
    exact successes_append drain.history .committed

/-- Only successful queries count, and they stay in the history. -/
theorem turn_successes {next : Drain} (hturn : drain.turn around config = .ok next) :
    successes drain.history ≤ successes next.history := by
  obtain ⟨handled, rfl, hcases⟩ := turn_cases hturn
  have hhandled : successes drain.history ≤ successes handled.history := by
    rcases hcases with ⟨_, rfl⟩ | ⟨insert, _, ⟨_, rfl⟩ | ⟨query, _, rfl⟩⟩
    · exact Nat.le_refl _
    · change _ ≤ successes (drain.history ++ [_])
      rw [successes_append]
      exact Nat.le_add_right _ _
    · rw [mysqlQuery_successes]
      exact Nat.le_add_right _ _
  rw [Drain.commitAtInterval, commitIf_successes]
  exact hhandled

theorem Counted.turn (counted : drain.Counted) (settled : drain.Settled) {next : Drain}
    (hturn : drain.turn around config = .ok next) (hfits : successes next.history < 2 ^ 32) :
    next.Counted ∧ next.Settled := by
  obtain ⟨handled, rfl, hcases⟩ := turn_cases hturn
  have hhandled : successes handled.history < 2 ^ 32 := by
    rw [← commitIf_successes]
    exact hfits
  have hpopped : Counted { drain.awaitQueue around with
      queue := (clbufPop (drain.awaitQueue around).queue).2 } := ⟨counted.counted, counted.within⟩
  rcases hcases with ⟨_, rfl⟩ | ⟨insert, _, ⟨_, rfl⟩ | ⟨query, _, rfl⟩⟩
  · exact hpopped.commitAtInterval (Or.inr settled)
  · refine (hpopped.record rfl (Nat.le_refl _)).commitAtInterval (Or.inr ?_)
    change uncommitted (drain.history ++ [.skipped insert]) ≤ _
    rw [uncommitted_append]
    exact settled
  · obtain ⟨hcounted, hdue⟩ := hpopped.mysqlQuery settled insert query hhandled
    exact hcounted.commitAtInterval hdue

theorem start_counted (queue : Clbuf Clinsert) :
    (Drain.start queue).Counted ∧ (Drain.start queue).Settled := by
  refine ⟨⟨rfl, ?_⟩, Nat.le_refl 0⟩
  intro earlier hearlier
  rw [List.prefix_nil.mp hearlier]
  exact Nat.zero_le _

/-- Every drain in the loop has kept the interval. -/
theorem Reached.counted (reached : Reached around config queue drain)
    (hfits : successes drain.history < 2 ^ 32) : drain.Counted ∧ drain.Settled := by
  induction reached with
  | start => exact start_counted queue
  | @turn drain next reached hused hturn ih =>
      have hmore := turn_successes hturn
      obtain ⟨hcounted, hsettled⟩ := ih (Nat.lt_of_le_of_lt hmore hfits)
      have hawaited : (drain.awaitQueue around).Counted := ⟨hcounted.counted, hcounted.within⟩
      exact hawaited.turn hsettled hturn hfits

/-- A loop that ends was in its loop until it counted an empty queue. -/
theorem Reached.loop (reached : Reached around config queue drain) {fuel : Nat} {final : Drain}
    (hloop : drain.loop around config fuel = .ok (some final)) :
    ∃ last, Reached around config queue last ∧ final = last.awaitQueue around := by
  induction fuel generalizing drain with
  | zero => cases hloop
  | succ fuel ih =>
      rcases loop_cases hloop with ⟨hused, next, hturn, hrest⟩ | ⟨_, rfl⟩
      · exact ih (reached.turn hused hturn) hrest
      · exact ⟨drain, reached, rfl⟩

/-- The commit at the end leaves nothing uncommitted. -/
theorem Counted.commitAtEnd (counted : drain.Counted) (settled : drain.Settled) :
    drain.commitAtEnd.Counted ∧ uncommitted drain.commitAtEnd.history = 0 := by
  refine ⟨counted.commitIf _, ?_⟩
  unfold Drain.commitAtEnd
  by_cases hpositive : drain.queryCounter > 0
  · rw [decide_eq_true hpositive]
    exact uncommitted_append drain.history .committed
  · rw [decide_eq_false hpositive]
    have hzero : drain.queryCounter.toNat = 0 := by
      rw [gt_iff_lt, UInt32.lt_iff_toNat_lt] at hpositive
      exact Nat.eq_zero_of_not_pos hpositive
    have hle : uncommitted drain.history ≤ _ := settled
    rw [hzero] at hle
    exact Nat.eq_zero_of_le_zero hle

end Drain

/-- A drain keeps the commit interval at every moment of its loop, and when it
returns everything is committed and the successful queries are counted. -/
theorem commits_within_interval (around : Surroundings) (config : Rtgconf)
    (queue : Clbuf Clinsert) :
    (∀ drain, Drain.Reached around config queue drain →
      successes drain.history < 2 ^ 32 → WithinInterval drain.history) ∧
    ∀ fuel final, processDatabaseQueue around config fuel queue = .ok (some final) →
      successes final.history < 2 ^ 32 →
        WithinInterval final.history ∧ uncommitted final.history = 0 ∧
          final.queryCounter.toNat = successes final.history := by
  constructor
  · intro drain reached hfits
    exact (reached.counted hfits).1.within
  · intro fuel final hreturn hfits
    obtain ⟨ended, hended, rfl⟩ := Drain.loop_of_returned hreturn
    obtain ⟨last, reached, rfl⟩ := (Drain.Reached.start).loop hended
    rw [Drain.commitAtEnd, Drain.commitIf_successes] at hfits
    obtain ⟨hcounted, hsettled⟩ := reached.counted hfits
    have hawaited : (last.awaitQueue around).Counted := ⟨hcounted.counted, hcounted.within⟩
    obtain ⟨hfinal, hnone⟩ := hawaited.commitAtEnd hsettled
    exact ⟨hfinal.within, hnone, hfinal.counted⟩

/-- Three inserts, of which the second is refused: two queries are counted and
committed. -/
theorem commits_within_interval_three :
    ∃ final, processDatabaseQueue (Drain.alone (· ≠ 1)) defaultRtgconf 4 threeInsertsQueue =
        .ok (some final) ∧ resultsOf final.history = [true, false, true] ∧
      uncommitted final.history = 0 ∧ final.queryCounter.toNat = 2 := by
  have hshown : (do
      let returned ← processDatabaseQueue (Drain.alone (· ≠ 1)) defaultRtgconf 4 threeInsertsQueue
      return returned.map (resultsOf ·.history) : Except Fault (Option (List Bool))) =
        .ok (some [true, false, true]) := by
    decide +kernel
  obtain ⟨returned, hreturn, hmapped⟩ := bind_eq_ok.mp hshown
  obtain ⟨final, rfl, hresults⟩ := Option.map_eq_some_iff.mp (Except.ok.inj hmapped)
  have hsuccesses : successes final.history = 2 := by
    rw [successes, hresults]
    rfl
  obtain ⟨-, hreturned⟩ :=
    commits_within_interval (Drain.alone (· ≠ 1)) defaultRtgconf threeInsertsQueue
  obtain ⟨-, hnone, hcounter⟩ := hreturned 4 final hreturn (by rw [hsuccesses]; decide)
  exact ⟨final, hreturn, hresults, hnone, hcounter.trans hsuccesses⟩

end ClusteredPoller.Database
