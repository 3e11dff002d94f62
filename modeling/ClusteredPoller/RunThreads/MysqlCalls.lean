import ClusteredPoller.Library.Observation
import ClusteredPoller.RunThreads.Drained

/-!
# The calls of MySQL

Each database thread connects, pings before it drains the queue, commits what it
has executed, and closes its connection at last.  The calls of a thread are in
order if a session goes through with them: one that is never asked anything
before it is connected or after it has ended, nor while it is not known to
answer, that is never left with more than an interval of rows to commit, and
that ends once, behind a commit.  Commits succeed; the program does not look at
their result.
-/

namespace ClusteredPoller.RunThreads

open Database
open Handover (Draining)
open Library Library.Transition

inductive MysqlCall where
  /-- `connection` -/
  | connect (connects : Bool)
  | ping (answers : Bool)
  | query (succeeds : Bool)
  | commit
  | close
  deriving DecidableEq

/-! ## What a session goes through with -/

inductive Session where
  /-- Not connected yet. -/
  | closed
  /-- Whether the last ping was answered, the number of queries since the last
  commit, and whether this was the last call. -/
  | opened (pinged : Bool) (pending : Nat) (committed : Bool)
  | ended
  deriving DecidableEq

namespace Session

def pending : Session → Nat
  | .closed | .ended => 0
  | .opened _ pending _ => pending

def call : Session → MysqlCall → Option Session
  | .closed, .connect connects => some (if connects then .opened false 0 false else .closed)
  | .opened _ pending _, .ping answers =>
      if pending = 0 then some (.opened answers 0 false) else none
  | .opened pinged pending _, .query succeeds =>
      if pinged = true ∧ pending < commitInterval.toNat then
        some (.opened true (if succeeds then pending + 1 else pending) false)
      else none
  | .opened pinged _ _, .commit => some (.opened pinged 0 true)
  | .opened _ _ committed, .close => if committed then some .ended else none
  | _, _ => none

/-- One call after another. -/
def calls : Session → List MysqlCall → Option Session :=
  List.foldlM call

theorem calls_single (session : Session) (made : MysqlCall) :
    session.calls [made] = session.call made := by
  change (session.call made >>= fun next => pure next) = _
  exact bind_pure _

theorem calls_append {session middle : Session} {first : List MysqlCall}
    (hfirst : session.calls first = some middle) (second : List MysqlCall) :
    session.calls (first ++ second) = middle.calls second := by
  rw [calls, List.foldlM_append, show List.foldlM call session first = _ from hfirst]
  rfl

end Session

section Calls

variable {n m : Nat}

/-- What a step of `process_database_queue` calls. -/
def drainCalls (succeeds : Bool) (draining : Draining) : List MysqlCall :=
  match draining.pc with
  | .execute _ _ => if draining.useDb then [.query succeeds] else []
  | .commitTest =>
      if draining.queryCounter > 0 ∧ draining.queryCounter % commitInterval = 0 then [.commit]
      else []
  | .commitEnd => if draining.queryCounter > 0 then [.commit] else []
  | _ => []

/-- What a step of `database_run` calls. -/
def threadCalls (answers : Answers) (thread : DatabaseThread) (draining : Draining) :
    List MysqlCall :=
  match thread.pc with
  | .connect => [.connect answers.connects]
  | .ping => [.ping answers.pings]
  | .draining => drainCalls answers.succeeds draining
  | .closing => if thread.connected then [.commit, .close] else []
  | _ => []

/-- The calls of a step, each with its thread. -/
def mysqlCalls : Label n m → Program n m → List (Fin m × MysqlCall)
  | .database j answers, s =>
      (threadCalls answers (s.databases j) (s.handover.databases j)).map fun made => (j, made)
  | _, _ => []

/-- The calls of one thread. -/
def callsOf (j : Fin m) (events : List (Fin m × MysqlCall)) : List MysqlCall :=
  (events.filter fun event => event.1 = j).map Prod.snd

/-- Fewer than 2³² queries of a call of `process_database_queue` succeed. -/
def CountFits : Label n m → Program n m → Prop
  | .database j _, s => (s.handover.databases j).queryCounter.toNat + 1 < UInt32.size
  | _, _ => True

instance (label : Label n m) (s : Program n m) : Decidable (CountFits label s) :=
  match label with
  | .database j _ =>
      inferInstanceAs (Decidable ((s.handover.databases j).queryCounter.toNat + 1 < _))
  | .threads _ | .queries _ _ | .main => .isTrue trivial

theorem callsOf_append (j : Fin m) (events : List (Fin m × MysqlCall)) (made : List MysqlCall)
    (k : Fin m) :
    callsOf j (events ++ made.map fun made => (k, made)) =
      callsOf j events ++ if k = j then made else [] := by
  rw [callsOf, callsOf, List.filter_append, List.map_append, List.filter_map]
  by_cases hkj : k = j
  · simp [hkj, Function.comp_def]
  · simp [hkj, Function.comp_def]

end Calls

/-! ## While the queue is drained -/

/-- What the session of a drain has to commit. -/
structure Owes (draining : Draining) (pending : Nat) : Prop where
  db : draining.useDb = true
  interval : pending ≤ commitInterval.toNat
  modulo : pending % commitInterval.toNat =
    draining.queryCounter.toNat % commitInterval.toNat
  counted : pending ≤ draining.queryCounter.toNat
  /-- The end of an interval is noticed before the next query. -/
  full : pending = commitInterval.toNat →
    draining.pc = .commitTest ∨ ∃ insert, draining.pc = .freeInsert insert

/-- In the loop, or behind it. -/
def OwesOrIdle (draining : Draining) (pending : Nat) : Prop :=
  (draining.pc = .idle ∧ pending = 0) ∨ (draining.pc ≠ .idle ∧ Owes draining pending)

section Drain

variable {n m : Nat} {config : Rtgconf} {j : Fin m} {succeeds : Bool}
  {memory memory' : Handover.Memory n m} {draining draining' : Draining} {pending : Nat}
  {committed : Bool}

/-- A step that calls nothing and counts nothing. -/
theorem Owes.quiet (owes : Owes draining pending) (hdb : draining'.useDb = draining.useDb)
    (hcounter : draining'.queryCounter = draining.queryCounter)
    (hfull : pending = commitInterval.toNat →
      draining'.pc = .commitTest ∨ ∃ insert, draining'.pc = .freeInsert insert) :
    Owes draining' pending := by
  refine ⟨hdb.trans owes.db, owes.interval, ?_, ?_, hfull⟩
  · rw [hcounter]
    exact owes.modulo
  · rw [hcounter]
    exact owes.counted

theorem Owes.not_full (owes : Owes draining pending) (htest : draining.pc ≠ .commitTest)
    (hfree : ∀ insert, draining.pc ≠ .freeInsert insert) : pending < commitInterval.toNat := by
  refine Nat.lt_of_le_of_ne owes.interval fun hfull => ?_
  rcases owes.full hfull with hpc | ⟨insert, hpc⟩
  · exact htest hpc
  · exact hfree insert hpc

theorem afterInsert_of_db (hdb : draining.useDb = true) :
    draining.afterInsert = draining.goto .commitTest := by
  rw [Draining.afterInsert, if_pos hdb]

theorem afterLoop_of_db (hdb : draining.useDb = true) :
    draining.afterLoop = draining.goto .commitEnd := by
  rw [Draining.afterLoop, if_pos hdb]

/-- A query is counted as soon as it has succeeded. -/
theorem Owes.executes (owes : Owes draining pending) {insert : Nat} {query : CString}
    (hpc : draining.pc = .execute insert query)
    (hfits : draining.queryCounter.toNat + 1 < UInt32.size) (succeeds : Bool) :
    Owes { draining with
      pc := .freeInsert insert
      queryCounter := if succeeds then draining.queryCounter + 1 else draining.queryCounter }
      (if succeeds then pending + 1 else pending) := by
  have hless : pending < commitInterval.toNat :=
    owes.not_full (by rw [hpc]; nofun) (by rw [hpc]; nofun)
  cases succeeds with
  | false => exact owes.quiet rfl rfl fun hfull => absurd hfull (Nat.ne_of_lt hless)
  | true =>
      have hcounter : (draining.queryCounter + 1).toNat = draining.queryCounter.toNat + 1 := by
        rw [UInt32.toNat_add]
        exact Nat.mod_eq_of_lt hfits
      refine ⟨owes.db, hless, ?_, ?_, fun _ => Or.inr ⟨insert, rfl⟩⟩
      · change (pending + 1) % _ = (draining.queryCounter + 1).toNat % _
        rw [hcounter, Nat.add_mod, owes.modulo, ← Nat.add_mod]
      · change pending + 1 ≤ (draining.queryCounter + 1).toNat
        rw [hcounter]
        exact Nat.succ_le_succ owes.counted

/-- Behind a commit, or where none is due, the loop goes on. -/
theorem Owes.commits (owes : Owes draining pending) (hpc : draining.pc = .commitTest)
    (succeeds : Bool) :
    ∃ pending' committed',
      (Session.opened true pending committed).calls (drainCalls succeeds draining) =
        some (.opened true pending' committed') ∧ Owes (draining.goto .countUsed) pending' := by
  rw [drainCalls, hpc]
  dsimp only
  split
  · rename_i hdue
    have hmultiple : draining.queryCounter.toNat % commitInterval.toNat = 0 := by
      rw [← UInt32.toNat_mod, hdue.2]
      rfl
    refine ⟨0, true, Session.calls_single _ _, owes.db, Nat.zero_le _, ?_, Nat.zero_le _, nofun⟩
    rw [show (draining.goto .countUsed).queryCounter = draining.queryCounter from rfl, hmultiple]
    exact Nat.zero_mod _
  · rename_i hnotDue
    refine ⟨pending, committed, rfl, owes.quiet rfl rfl fun hfull => absurd ?_ hnotDue⟩
    have hpositive : 0 < draining.queryCounter.toNat :=
      Nat.lt_of_lt_of_le (by rw [hfull]; decide) owes.counted
    refine ⟨UInt32.lt_iff_toNat_lt.mpr hpositive, UInt32.toNat_inj.mp ?_⟩
    rw [UInt32.toNat_mod, ← owes.modulo, hfull]
    exact Nat.mod_self _

theorem Owes.commitsEnd (owes : Owes draining pending) (hpc : draining.pc = .commitEnd)
    (succeeds : Bool) :
    ∃ committed',
      (Session.opened true pending committed).calls (drainCalls succeeds draining) =
        some (.opened true 0 committed') := by
  rw [drainCalls, hpc]
  dsimp only
  split
  · exact ⟨true, Session.calls_single _ _⟩
  · rename_i hzero
    have hnone : draining.queryCounter.toNat = 0 :=
      Nat.eq_zero_of_not_pos fun hpositive => hzero (UInt32.lt_iff_toNat_lt.mpr hpositive)
    have hpending : pending = 0 := Nat.eq_zero_of_le_zero (hnone ▸ owes.counted)
    rw [hpending]
    exact ⟨committed, rfl⟩

/-- A session goes through with the calls of `process_database_queue`. -/
theorem Owes.drains (owes : Owes draining pending)
    (hfits : draining.queryCounter.toNat + 1 < UInt32.size)
    (hstep : Handover.drainStep config j succeeds memory draining = some (memory', draining')) :
    ∃ pending' committed',
      (Session.opened true pending committed).calls (drainCalls succeeds draining) =
        some (.opened true pending' committed') ∧ OwesOrIdle draining' pending' := by
  have hsilent : drainCalls succeeds draining = [] → OwesOrIdle draining' pending →
      ∃ pending' committed',
        (Session.opened true pending committed).calls (drainCalls succeeds draining) =
          some (.opened true pending' committed') ∧ OwesOrIdle draining' pending' := by
    intro hnothing howes
    rw [hnothing]
    exact ⟨pending, committed, rfl, howes⟩
  unfold Handover.drainStep at hstep
  cases hpc : draining.pc with
  | idle =>
      rw [hpc] at hstep
      cases hstep
  | countUsed =>
      have hless := owes.not_full (by rw [hpc]; nofun) (by rw [hpc]; nofun)
      have hnotFull : pending ≠ commitInterval.toNat := Nat.ne_of_lt hless
      rw [hpc] at hstep
      cases hstep
      refine hsilent (by rw [drainCalls, hpc]) (Or.inr ?_)
      split
      · exact ⟨nofun, owes.quiet rfl rfl fun hfull => absurd hfull hnotFull⟩
      · rw [afterLoop_of_db owes.db]
        exact ⟨nofun, owes.quiet rfl rfl fun hfull => absurd hfull hnotFull⟩
  | pop =>
      have hless := owes.not_full (by rw [hpc]; nofun) (by rw [hpc]; nofun)
      have hnotFull : pending ≠ commitInterval.toNat := Nat.ne_of_lt hless
      rw [hpc] at hstep
      dsimp only at hstep
      refine hsilent (by rw [drainCalls, hpc]) (Or.inr ?_)
      split at hstep
      · cases hstep
        exact ⟨nofun, owes.quiet rfl rfl fun hfull => absurd hfull hnotFull⟩
      · cases hstep
        rw [afterInsert_of_db owes.db]
        exact ⟨nofun, owes.quiet rfl rfl fun hfull => absurd hfull hnotFull⟩
  | build insert =>
      have hless := owes.not_full (by rw [hpc]; nofun) (by rw [hpc]; nofun)
      have hnotFull : pending ≠ commitInterval.toNat := Nat.ne_of_lt hless
      rw [hpc] at hstep
      dsimp only at hstep
      obtain ⟨values, -, hbuild⟩ := Option.map_eq_some_iff.mp hstep
      refine hsilent (by rw [drainCalls, hpc]) (Or.inr ?_)
      split at hbuild
      · cases hbuild
        exact ⟨nofun, owes.quiet rfl rfl fun hfull => absurd hfull hnotFull⟩
      · cases hbuild
        exact ⟨nofun, owes.quiet rfl rfl fun hfull => absurd hfull hnotFull⟩
      · cases hbuild
        exact ⟨by rw [hpc]; nofun, owes⟩
  | execute insert query =>
      have hless := owes.not_full (by rw [hpc]; nofun) (by rw [hpc]; nofun)
      have hexecutes := owes.executes hpc hfits succeeds
      have hsucceeded : (!draining.useDb || succeeds) = succeeds := by
        rw [owes.db]
        rfl
      rw [hpc] at hstep
      dsimp only at hstep
      rw [hsucceeded] at hstep
      cases hstep
      refine ⟨if succeeds then pending + 1 else pending, false, ?_, Or.inr ⟨nofun, hexecutes⟩⟩
      rw [drainCalls, hpc]
      dsimp only
      rw [if_pos owes.db, Session.calls_single]
      exact if_pos ⟨rfl, hless⟩
  | freeInsert insert =>
      rw [hpc] at hstep
      cases hstep
      refine hsilent (by rw [drainCalls, hpc]) (Or.inr ?_)
      rw [afterInsert_of_db owes.db]
      exact ⟨nofun, owes.quiet rfl rfl fun _ => Or.inl rfl⟩
  | commitTest =>
      obtain ⟨pending', committed', hcalls, howes⟩ :=
        @Owes.commits draining pending committed owes hpc succeeds
      rw [hpc] at hstep
      cases hstep
      exact ⟨pending', committed', hcalls, Or.inr ⟨nofun, howes⟩⟩
  | commitEnd =>
      obtain ⟨committed', hcalls⟩ :=
        @Owes.commitsEnd draining pending committed owes hpc succeeds
      rw [hpc] at hstep
      cases hstep
      exact ⟨0, committed', hcalls, Or.inl ⟨rfl, rfl⟩⟩

/-- In `print_database_queue`. -/
structure Prints (draining : Draining) : Prop where
  db : draining.useDb = false
  test : draining.pc ≠ .commitTest
  last : draining.pc ≠ .commitEnd

theorem Prints.calls (prints : Prints draining) (succeeds : Bool) :
    drainCalls succeeds draining = [] := by
  unfold drainCalls
  split
  · rw [prints.db]
    rfl
  · rename_i hpc
    exact absurd hpc prints.test
  · rename_i hpc
    exact absurd hpc prints.last
  · rfl

theorem Prints.drains (prints : Prints draining)
    (hstep : Handover.drainStep config j succeeds memory draining = some (memory', draining')) :
    Prints draining' := by
  have hinsert : draining.afterInsert = draining.goto .countUsed := by
    rw [Draining.afterInsert, if_neg (by rw [prints.db]; exact Bool.false_ne_true)]
  have hloop : draining.afterLoop = draining.goto .idle := by
    rw [Draining.afterLoop, if_neg (by rw [prints.db]; exact Bool.false_ne_true)]
  unfold Handover.drainStep at hstep
  cases hpc : draining.pc with
  | idle =>
      rw [hpc] at hstep
      cases hstep
  | countUsed =>
      rw [hpc] at hstep
      cases hstep
      split
      · exact ⟨prints.db, nofun, nofun⟩
      · rw [hloop]
        exact ⟨prints.db, nofun, nofun⟩
  | pop =>
      rw [hpc] at hstep
      dsimp only at hstep
      split at hstep
      · cases hstep
        exact ⟨prints.db, nofun, nofun⟩
      · cases hstep
        rw [hinsert]
        exact ⟨prints.db, nofun, nofun⟩
  | build insert =>
      rw [hpc] at hstep
      obtain ⟨values, -, hbuild⟩ := Option.map_eq_some_iff.mp hstep
      split at hbuild
      · cases hbuild
        exact ⟨prints.db, nofun, nofun⟩
      · cases hbuild
        exact ⟨prints.db, nofun, nofun⟩
      · cases hbuild
        exact prints
  | execute insert query =>
      rw [hpc] at hstep
      cases hstep
      exact ⟨prints.db, nofun, nofun⟩
  | freeInsert insert =>
      rw [hpc] at hstep
      cases hstep
      rw [hinsert]
      exact ⟨prints.db, nofun, nofun⟩
  | commitTest => exact absurd hpc prints.test
  | commitEnd => exact absurd hpc prints.last

end Drain

/-! ## The threads -/

section Threads

variable {n m : Nat} {config : Rtgconf} {s next : Program n m} {j : Fin m} {answers : Answers}

/-- How far the session of a database thread is. -/
inductive InSession (config : Rtgconf) (thread : DatabaseThread) (draining : Draining) :
    Session → Prop where
  | offline (hconnected : thread.connected = false) (hping : thread.pc ≠ .ping)
      (hcall : thread.pc = .call → config.useDb = false)
      (hconnect : thread.pc = .connect → config.useDb = true)
      (hprints : draining.pc ≠ .idle → Prints draining) : InSession config thread draining .closed
  | online (pinged : Bool) (pending : Nat) (committed : Bool) (hconnected : thread.connected = true)
      (hconnect : thread.pc ≠ .connect) (hreturned : thread.pc ≠ .returned)
      (hdb : config.useDb = true)
      (hpinged : thread.pc = .call ∨ thread.pc = .draining → pinged = true)
      (howes : OwesOrIdle draining pending) :
      InSession config thread draining (.opened pinged pending committed)
  | finished (hconnected : thread.connected = true) (hreturned : thread.pc = .returned) :
      InSession config thread draining .ended

theorem OwesOrIdle.of_idle {draining : Draining} {pending : Nat}
    (howes : OwesOrIdle draining pending) (hidle : draining.pc = .idle) : pending = 0 :=
  howes.elim And.right fun hbusy => absurd hidle hbusy.1

/-- The session goes through with the step of its thread. -/
def GoesOn (config : Rtgconf) (s next : Program n m) (j : Fin m) (answers : Answers)
    (session : Session) : Prop :=
  ∃ session', session.calls (threadCalls answers (s.databases j) (s.handover.databases j)) =
    some session' ∧ InSession config (next.databases j) (next.handover.databases j) session'

theorem goesOn_quiet {session : Session} {thread : DatabaseThread}
    (hquiet : threadCalls answers (s.databases j) (s.handover.databases j) = [])
    (inSession : InSession config thread (s.handover.databases j) session) :
    GoesOn config s (s.setDatabase j thread) j answers session := by
  refine ⟨session, ?_, ?_⟩
  · rw [hquiet]
    rfl
  · rw [setDatabase_self]
    exact inSession

/-- Asleep, a thread has its session as it was. -/
theorem InSession.asleep {thread : DatabaseThread} {draining : Draining} {session : Session}
    (inSession : InSession config thread draining session) (hreturned : thread.pc ≠ .returned) :
    InSession config { thread with pc := .sleep } draining session := by
  cases inSession with
  | offline hconnected _ _ _ hprints => exact .offline hconnected nofun nofun nofun hprints
  | online pinged pending committed hconnected _ _ hdb _ howes =>
      exact .online pinged pending committed hconnected nofun nofun hdb nofun howes
  | finished _ hpc => exact absurd hpc hreturned

theorem loopTest_goesOn {session : Session} (hpc : (s.databases j).pc = .loopTest)
    (inSession : InSession config (s.databases j) (s.handover.databases j) session)
    (hstep : s.databaseStep config j answers = some next) :
    GoesOn config s next j answers session := by
  rw [Program.databaseStep, hpc] at hstep
  cases hstep
  refine goesOn_quiet (by rw [threadCalls, hpc]) ?_
  cases inSession with
  | offline hconnected _ _ _ hprints =>
      split
      · exact .offline hconnected nofun nofun nofun hprints
      · split
        · rename_i hprint
          exact .offline hconnected nofun (fun _ => by simpa using hprint) nofun hprints
        · rename_i hdb
          rw [hconnected]
          exact .offline hconnected nofun nofun (fun _ => by simpa using hdb) hprints
  | online pinged pending committed hconnected _ _ hdb _ howes =>
      split
      · exact .online pinged pending committed hconnected nofun nofun hdb nofun howes
      · rw [hdb]
        exact .online pinged pending committed hconnected nofun nofun hdb nofun howes
  | finished _ hreturned => exact nomatch hpc.symm.trans hreturned

theorem connect_goesOn {session : Session} (orderly : Orderly s)
    (hpc : (s.databases j).pc = .connect)
    (inSession : InSession config (s.databases j) (s.handover.databases j) session)
    (hstep : s.databaseStep config j answers = some next) :
    GoesOn config s next j answers session := by
  rw [Program.databaseStep, hpc] at hstep
  cases hstep
  have hidle := orderly.idle j (by rw [hpc]; nofun)
  cases inSession with
  | offline hconnected _ _ hconnect hprints =>
      unfold GoesOn
      rw [threadCalls, hpc]
      dsimp only
      rw [Session.calls_single, Session.call]
      cases answers.connects with
      | true =>
          refine ⟨_, rfl, ?_⟩
          rw [if_pos rfl, setDatabase_self]
          exact .online false 0 false rfl nofun nofun (hconnect hpc) nofun
            (Or.inl ⟨hidle, rfl⟩)
      | false =>
          refine ⟨_, rfl, ?_⟩
          rw [if_neg Bool.false_ne_true, Program.databaseGoto, setDatabase_self]
          exact .offline hconnected nofun nofun nofun hprints
  | online _ _ _ _ hconnect => exact absurd hpc hconnect
  | finished _ hreturned => exact nomatch hpc.symm.trans hreturned

theorem ping_goesOn {session : Session} (orderly : Orderly s)
    (hpc : (s.databases j).pc = .ping)
    (inSession : InSession config (s.databases j) (s.handover.databases j) session)
    (hstep : s.databaseStep config j answers = some next) :
    GoesOn config s next j answers session := by
  rw [Program.databaseStep, hpc] at hstep
  cases hstep
  have hidle := orderly.idle j (by rw [hpc]; nofun)
  cases inSession with
  | offline _ hping => exact absurd hpc hping
  | online pinged pending committed hconnected _ _ hdb _ howes =>
      unfold GoesOn
      rw [threadCalls, hpc]
      dsimp only
      rw [Session.calls_single, Session.call, if_pos (howes.of_idle hidle), Program.databaseGoto,
        setDatabase_self]
      refine ⟨_, rfl, ?_⟩
      cases answers.pings with
      | true =>
          exact .online true 0 false hconnected nofun nofun hdb (fun _ => rfl)
            (Or.inl ⟨hidle, rfl⟩)
      | false =>
          exact .online false 0 false hconnected nofun nofun hdb nofun (Or.inl ⟨hidle, rfl⟩)
  | finished _ hreturned => exact nomatch hpc.symm.trans hreturned

theorem call_goesOn {session : Session} (orderly : Orderly s)
    (hpc : (s.databases j).pc = .call)
    (inSession : InSession config (s.databases j) (s.handover.databases j) session)
    (hstep : s.databaseStep config j answers = some next) :
    GoesOn config s next j answers session := by
  rw [Program.databaseStep, hpc] at hstep
  obtain ⟨handover, hdrain, rfl⟩ := Option.map_eq_some_iff.mp hstep
  have hidle := orderly.idle j (by rw [hpc]; nofun)
  have hbegun : handover.databases j = Draining.begin config.useDb := by
    cases Handover.step_effect hdrain with
    | drains _ _ _ hnext =>
        rw [hnext]
        exact Function.update_self ..
  refine ⟨session, by rw [threadCalls, hpc]; rfl, ?_⟩
  change InSession config ((s.databaseGoto j .draining).databases j) (handover.databases j) session
  rw [hbegun, Program.databaseGoto, setDatabase_self]
  cases inSession with
  | offline hconnected _ hcall _ hprints =>
      have hprint := hcall hpc
      exact .offline hconnected nofun nofun nofun fun _ => ⟨hprint, nofun, nofun⟩
  | online pinged pending committed hconnected _ _ hdb hpinged howes =>
      have hpending := howes.of_idle hidle
      subst hpending
      refine .online pinged 0 committed hconnected nofun nofun hdb
        (fun _ => hpinged (Or.inl hpc)) ?_
      exact Or.inr ⟨nofun, hdb, Nat.zero_le _, rfl, Nat.zero_le _, nofun⟩
  | finished _ hreturned => exact nomatch hpc.symm.trans hreturned

theorem draining_goesOn {session : Session} (hfits : CountFits (.database j answers) s)
    (hpc : (s.databases j).pc = .draining)
    (inSession : InSession config (s.databases j) (s.handover.databases j) session)
    (hstep : s.databaseStep config j answers = some next) :
    GoesOn config s next j answers session := by
  rw [Program.databaseStep, hpc, Program.databaseStepAt] at hstep
  split at hstep
  · rename_i hidle
    cases hstep
    refine goesOn_quiet ?_ ?_
    · rw [threadCalls, hpc]
      dsimp only
      rw [drainCalls, hidle]
    · refine inSession.asleep fun hreturned => ?_
      cases hpc.symm.trans hreturned
  · rename_i hbusy
    obtain ⟨handover, hdatabase, rfl⟩ := Option.map_eq_some_iff.mp hstep
    unfold Handover.step at hdatabase
    split at hdatabase
    · cases hdatabase
    · obtain ⟨⟨memory, draining⟩, hdrain, rfl⟩ := Option.map_eq_some_iff.mp hdatabase
      unfold GoesOn
      rw [threadCalls, hpc]
      dsimp only
      rw [Function.update_self]
      cases inSession with
      | offline hconnected hping hcall hconnect hprints =>
          have prints := hprints hbusy
          refine ⟨_, by rw [prints.calls]; rfl, ?_⟩
          exact .offline hconnected hping hcall hconnect fun _ => prints.drains hdrain
      | online pinged pending committed hconnected hconnect hreturned hdb hpinged howes =>
          have owes : Owes (s.handover.databases j) pending :=
            (howes.resolve_left fun hidle => hbusy hidle.1).2
          have hping := hpinged (Or.inr hpc)
          subst hping
          obtain ⟨pending', committed', hcalls, howes'⟩ :=
            @Owes.drains n m config j _ _ memory _ draining pending committed owes hfits hdrain
          exact ⟨_, hcalls, .online true pending' committed' hconnected hconnect hreturned hdb
            (fun _ => rfl) howes'⟩
      | finished _ hreturned => cases hpc.symm.trans hreturned

theorem closing_goesOn {session : Session} (hpc : (s.databases j).pc = .closing)
    (inSession : InSession config (s.databases j) (s.handover.databases j) session)
    (hstep : s.databaseStep config j answers = some next) :
    GoesOn config s next j answers session := by
  rw [Program.databaseStep, hpc] at hstep
  cases hstep
  unfold GoesOn
  rw [threadCalls, hpc]
  dsimp only
  rw [Program.databaseGoto, setDatabase_self]
  cases inSession with
  | offline hconnected _ _ _ hprints =>
      refine ⟨.closed, by rw [hconnected]; rfl, ?_⟩
      exact .offline hconnected nofun nofun nofun hprints
  | online pinged pending committed hconnected =>
      refine ⟨.ended, by rw [hconnected]; rfl, ?_⟩
      exact .finished hconnected rfl
  | finished _ hreturned => exact nomatch hpc.symm.trans hreturned

theorem databaseStep_goesOn {session : Session} (orderly : Orderly s)
    (hfits : CountFits (.database j answers) s)
    (inSession : InSession config (s.databases j) (s.handover.databases j) session)
    (hstep : s.databaseStep config j answers = some next) :
    GoesOn config s next j answers session := by
  cases hpc : (s.databases j).pc with
  | loopTest => exact loopTest_goesOn hpc inSession hstep
  | connect => exact connect_goesOn orderly hpc inSession hstep
  | ping => exact ping_goesOn orderly hpc inSession hstep
  | call => exact call_goesOn orderly hpc inSession hstep
  | draining => exact draining_goesOn hfits hpc inSession hstep
  | sleep =>
      rw [Program.databaseStep, hpc] at hstep
      cases hstep
      refine goesOn_quiet (by rw [threadCalls, hpc]) ?_
      cases inSession with
      | offline hconnected _ _ _ hprints => exact .offline hconnected nofun nofun nofun hprints
      | online pinged pending committed hconnected _ _ hdb _ howes =>
          exact .online pinged pending committed hconnected nofun nofun hdb nofun howes
      | finished _ hreturned => exact nomatch hpc.symm.trans hreturned
  | closing => exact closing_goesOn hpc inSession hstep
  | returned =>
      rw [Program.databaseStep, hpc] at hstep
      cases hstep

/-- A database thread changes with its own steps only. -/
theorem databases_same {label : Label n m} (hother : ∀ answers, label ≠ .database j answers)
    (hstep : step config label s = some next) :
    next.databases j = s.databases j ∧ next.handover.databases j = s.handover.databases j := by
  have hne : ∀ {k answers}, label = .database k answers → j ≠ k := by
    rintro k answers hlabel rfl
    exact hother answers hlabel
  cases step_effect hstep with
  | threads label threads hnext =>
      subst hnext
      exact ⟨rfl, rfl⟩
  | queries i garbage threads handover hqueries hnext =>
      subst hnext
      exact ⟨rfl, congrFun (databases_of_queries hqueries) j⟩
  | leaves k answers _ _ hnext | closes k answers _ hnext | moves k answers thread _ _ _ _ hnext =>
      subst hnext
      exact ⟨setDatabase_of_ne (hne rfl), rfl⟩
  | calls k answers handover _ hdrain hnext =>
      subst hnext
      exact ⟨setDatabase_of_ne (hne rfl), databases_of_drain (Or.inl ⟨_, hdrain⟩) (hne rfl)⟩
  | drains k answers handover _ hdatabase hnext =>
      subst hnext
      exact ⟨rfl, databases_of_drain (Or.inr ⟨_, hdatabase⟩) (hne rfl)⟩
  | joins main _ _ hnext =>
      subst hnext
      exact ⟨rfl, rfl⟩

/-- The session of a thread goes through with all its calls so far. -/
structure InOrder (config : Rtgconf) (o : Observed (Program n m) (Fin m × MysqlCall)) : Prop where
  orderly : Orderly o.state
  sessions : ∀ j, ∃ session, Session.closed.calls (callsOf j o.events) = some session ∧
    InSession config (o.state.databases j) (o.state.handover.databases j) session

theorem inOrder_keeps (config : Rtgconf) :
    Keeps (Observed.step (step config) (mysqlCalls (n := n) (m := m)))
      (fun label o => CountFits label o.state) (InOrder config) := by
  intro label o after hfits inOrder hobserved
  obtain ⟨hstep, hevents⟩ := Observed.step_eq_some.mp hobserved
  refine ⟨inOrder.orderly.step hstep, fun k => ?_⟩
  obtain ⟨session, hcalls, inSession⟩ := inOrder.sessions k
  by_cases hown : ∃ answers, label = .database k answers
  · obtain ⟨answers, rfl⟩ := hown
    have hmade : o.state.databaseStep config k answers = some after.state := by
      unfold step at hstep
      split at hstep
      · cases hstep
      · dsimp only at hstep
        split at hstep
        · exact hstep
        · cases hstep
    obtain ⟨session', hgoesOn, inSession'⟩ :=
      databaseStep_goesOn inOrder.orderly hfits inSession hmade
    refine ⟨session', ?_, inSession'⟩
    rw [hevents, mysqlCalls, callsOf_append, if_pos rfl, Session.calls_append hcalls]
    exact hgoesOn
  · have hother : ∀ answers, label ≠ .database k answers := fun answers hlabel =>
      hown ⟨answers, hlabel⟩
    obtain ⟨hthread, hdraining⟩ := databases_same hother hstep
    refine ⟨session, ?_, ?_⟩
    · rw [hevents]
      cases label with
      | database j answers =>
          rw [mysqlCalls, callsOf_append, if_neg (fun hjk : j = k => hother answers (by rw [hjk])),
            List.append_nil]
          exact hcalls
      | threads | queries | main =>
          rw [mysqlCalls, List.append_nil]
          · exact hcalls
          all_goals nofun
    · rw [hthread, hdraining]
      exact inSession

theorem inSession_start : InSession config { pc := .loopTest, connected := false } Draining.idle
    .closed :=
  .offline rfl nofun nofun nofun fun hbusy => absurd rfl hbusy

end Threads

section Runs

variable {n m : Nat} {config : Rtgconf} {hosts : List Poller.Queryhost} {clock : Nat}
  {nextIteration : Int} {statistics : Threads.Statistics}

/-- In every run, every database thread makes its calls in order: it asks
nothing of a connection that it does not have, sends queries only after a ping
that was answered, has never more than an interval of them to commit and none
outside of the drain, and if it was connected when it returns, it has closed its
connection once, as its last call and right behind a commit. -/
theorem mysql_calls_in_order (hqueue : 0 < config.maxDbQueue.toNat) {labels : List (Label n m)}
    {o : Observed (Program n m) (Fin m × MysqlCall)}
    (hrun : run (Observed.step (step config) mysqlCalls) labels
      (Observed.begin (Program.start config hqueue hosts clock nextIteration statistics)) = some o)
    (fits : Guarded (step config) CountFits labels
      (Program.start config hqueue hosts clock nextIteration statistics)) (j : Fin m) :
    ∃ session, Session.closed.calls (callsOf j o.events) = some session ∧
      session.pending ≤ commitInterval.toNat ∧
      ((o.state.handover.databases j).pc = .idle → session.pending = 0) ∧
      ((o.state.databases j).pc = .returned →
        session = if (o.state.databases j).connected then .ended else .closed) := by
  have hstart : InOrder config (Observed.begin
      (Program.start config hqueue hosts clock nextIteration statistics : Program n m)) :=
    ⟨orderly_start hqueue, fun _ => ⟨.closed, rfl, inSession_start⟩⟩
  have inOrder := (inOrder_keeps config).run (Observed.guarded_iff.mpr fits) hstart hrun
  obtain ⟨session, hcalls, inSession⟩ := inOrder.sessions j
  refine ⟨session, hcalls, ?_⟩
  cases inSession with
  | offline hconnected =>
      refine ⟨Nat.zero_le _, fun _ => rfl, fun _ => ?_⟩
      rw [hconnected]
      rfl
  | online pinged pending committed _ _ hreturned _ _ howes =>
      refine ⟨?_, fun hidle => howes.of_idle hidle, fun hpc => absurd hpc hreturned⟩
      rcases howes with ⟨-, hnone⟩ | ⟨-, owes⟩
      · rw [hnone]
        exact Nat.zero_le _
      · exact owes.interval
  | finished hconnected =>
      refine ⟨Nat.zero_le _, fun _ => rfl, fun _ => ?_⟩
      rw [hconnected]
      rfl

end Runs

/-- A run with three queries, of which the second fails. -/
theorem mysql_calls_in_order_refusedSecond :
    ∃ o, run (Observed.step (step smallestQueue) mysqlCalls) refusedSecond
        (Observed.begin gaugesStart) = some o ∧
      callsOf Handover.onlyThread o.events =
        [.connect true, .ping true, .query true, .query false, .query true, .commit, .commit,
          .close] ∧
      Session.closed.calls (callsOf Handover.onlyThread o.events) = some .ended := by
  have hcalls : (run (Observed.step (step smallestQueue) mysqlCalls) refusedSecond
      (Observed.begin gaugesStart)).map (fun o => (callsOf Handover.onlyThread o.events,
        o.state.databases Handover.onlyThread)) =
        some ([.connect true, .ping true, .query true, .query false, .query true, .commit,
          .commit, .close], { pc := .returned, connected := true }) := by
    decide +kernel
  have hfits : Guarded (step smallestQueue) CountFits refusedSecond gaugesStart := by
    decide +kernel
  obtain ⟨o, hrun, hmade⟩ := Option.map_eq_some_iff.mp hcalls
  obtain ⟨hcalled, hthread⟩ := Prod.mk.inj hmade
  obtain ⟨session, hsession, -, -, hreturned⟩ :=
    mysql_calls_in_order (by decide) hrun hfits Handover.onlyThread
  rw [hthread] at hreturned
  exact ⟨o, hrun, hcalled, by rw [hsession, hreturned rfl]; rfl⟩

end ClusteredPoller.RunThreads
