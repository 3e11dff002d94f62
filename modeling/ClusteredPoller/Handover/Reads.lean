import ClusteredPoller.Handover.Accounts

/-!
# The read behind a push

A poller reads `nvalues` of an insert that it has just pushed.  If a database
thread has popped and freed the insert by then, the read goes to freed memory.
-/

namespace ClusteredPoller.Handover

open Library Poller Queue Threads

section Reads

variable {n m : Nat}

/-- A database thread frees no insert that a poller is about to read. -/
def ReadBeforeFreed : Label n m → State n m → Prop
  | .database j _, s => ∀ i, ∀ insert ∈ (s.pollers i).reading,
      (s.databases j).pc ≠ .freeInsert insert
  | _, _ => True

instance (label : Label n m) (s : State n m) : Decidable (ReadBeforeFreed label s) := by
  cases label with
  | database j succeeds =>
      exact inferInstanceAs (Decidable (∀ i, ∀ insert ∈ (s.pollers i).reading,
        (s.databases j).pc ≠ .freeInsert insert))
  | begin | poller | drain => exact .isTrue trivial

/-- No poller has read a field of a freed insert, and none is about to. -/
structure ReadsFresh (s : State n m) : Prop where
  read : ∀ i insert, .staleRead i insert ∉ s.memory.history
  reading : ∀ i, ∀ insert ∈ (s.pollers i).reading, insert ∉ s.memory.freed

/-- The update of the statistics at the end of a call adds the values of what
the call has pushed, in the arithmetic of `unsigned`. -/
def RowsCounted (s : State n m) : Prop :=
  ∀ i depth, (s.pollers i).pc = .update depth → ∀ statistics : Statistics,
    (statistics.addQueries ((s.pollers i).totals depth)).insertRows =
      statistics.insertRows + ((s.pollers i).queued.map s.memory.nvalues).sum

/-! ## The invariant -/

/-- What a poller has pushed in its call, and the count of it. -/
structure Counted (memory : Memory n m) (queries : Queries) : Prop where
  reading : ∀ insert ∈ queries.reading, insert ∈ memory.pushed ∧ insert ∉ memory.freed
  queued : ∀ insert ∈ queries.queued, insert ∈ memory.pushed
  counted : queries.queuedValues + (queries.reading.map memory.nvalues).sum =
    (queries.queued.map memory.nvalues).sum

/-- The pushed inserts stay as they are, and those in question are not freed. -/
structure Leaves (memory memory' : Memory n m) (reading : List Nat) : Prop where
  pushed : ∀ insert ∈ memory.pushed, insert ∈ memory'.pushed
  nvalues : ∀ insert ∈ memory.pushed, memory'.nvalues insert = memory.nvalues insert
  freed : ∀ insert ∈ reading, insert ∉ memory.freed → insert ∉ memory'.freed

section Memories

variable {memory memory' : Memory n m} {queries queries' : Queries}

theorem Counted.leaves (counted : Counted memory queries)
    (leaves : Leaves memory memory' queries.reading) : Counted memory' queries := by
  constructor
  · intro insert hinsert
    obtain ⟨hpushed, hfresh⟩ := counted.reading insert hinsert
    exact ⟨leaves.pushed insert hpushed, leaves.freed insert hinsert hfresh⟩
  · exact fun insert hinsert => leaves.pushed insert (counted.queued insert hinsert)
  · have hreading : queries.reading.map memory'.nvalues = queries.reading.map memory.nvalues :=
      List.map_congr_left fun insert hinsert =>
        leaves.nvalues insert (counted.reading insert hinsert).1
    have hqueued : queries.queued.map memory'.nvalues = queries.queued.map memory.nvalues :=
      List.map_congr_left fun insert hinsert =>
        leaves.nvalues insert (counted.queued insert hinsert)
    rw [hreading, hqueued]
    exact counted.counted

/-- The views of the locals that count. -/
theorem Counted.congr (counted : Counted memory queries)
    (hreading : queries'.reading = queries.reading)
    (hqueued : queries'.queued = queries.queued ∧
      queries'.queuedValues = queries.queuedValues) : Counted memory queries' := by
  constructor
  · rw [hreading]
    exact counted.reading
  · rw [hqueued.1]
    exact counted.queued
  · rw [hreading, hqueued.1, hqueued.2]
    exact counted.counted

/-- The poller has pushed an insert and is about to read it. -/
theorem Counted.pushes {insert : Nat} (counted : Counted memory queries)
    (hpushed : insert ∈ memory.pushed) (hfresh : insert ∉ memory.freed)
    (hreading : queries.reading = [] ∧ queries'.reading = [insert])
    (hqueued : queries'.queued = queries.queued ++ [insert] ∧
      queries'.queuedValues = queries.queuedValues) : Counted memory queries' := by
  constructor
  · rw [hreading.2]
    intro other hother
    rw [List.mem_singleton.mp hother]
    exact ⟨hpushed, hfresh⟩
  · rw [hqueued.1]
    intro other hother
    rcases List.mem_append.mp hother with hbefore | hnew
    · exact counted.queued other hbefore
    · rw [List.mem_singleton.mp hnew]
      exact hpushed
  · have hsum := counted.counted
    rw [hreading.1, List.map_nil, List.sum_nil, UInt32.add_zero] at hsum
    rw [hreading.2, hqueued.1, hqueued.2, hsum, List.map_append, List.sum_append]

/-- The poller has read what it was about to, and has added it. -/
theorem Counted.reads {insert : Nat} (counted : Counted memory queries)
    (hreading : queries.reading = [insert] ∧ queries'.reading = [])
    (hqueued : queries'.queued = queries.queued ∧
      queries'.queuedValues = queries.queuedValues + memory.nvalues insert) :
    Counted memory queries' := by
  constructor
  · rw [hreading.2]
    intro other hother
    cases hother
  · rw [hqueued.1]
    exact counted.queued
  · have hsum := counted.counted
    rw [hreading.1, List.map_singleton, List.sum_singleton] at hsum
    rw [hreading.2, hqueued.1, hqueued.2, ← hsum]
    exact UInt32.add_zero _

theorem counted_idle (memory : Memory n m) : Counted memory Queries.idle :=
  ⟨nofun, nofun, rfl⟩

/-- The queue may change, or a fault may be noted. -/
theorem leaves_same {reading : List Nat} (hhistory : memory'.history = memory.history)
    (hinserts : memory'.inserts = memory.inserts) : Leaves memory memory' reading := by
  constructor
  · intro insert hinsert
    rwa [Memory.pushed, Memory.pushes, hhistory]
  · intro insert _
    rw [Memory.nvalues, hinserts, Memory.nvalues]
  · intro insert _ hfresh
    rwa [Memory.freed, hhistory]

/-- A new event, with the queue perhaps changed. -/
theorem leaves_record {event : Event n m} {before : Memory n m} {reading : List Nat}
    (hhistory : before.history = memory.history) (hinserts : before.inserts = memory.inserts)
    (hfree : ∀ insert ∈ reading, event.free ≠ some insert) :
    Leaves memory (before.record event) reading := by
  constructor
  · intro insert hinsert
    rw [Memory.pushed, Memory.pushes, filterMap_record, List.map_append, hhistory]
    exact List.mem_append_left _ hinsert
  · exact (@leaves_same _ _ _ _ reading hhistory hinserts).nvalues
  · intro insert hinsert hfresh
    rw [Memory.freed, filterMap_record, List.mem_append, Option.mem_toList, hhistory]
    rintro (hfreed | hevent)
    · exact hfresh hfreed
    · exact hfree insert hinsert hevent

theorem leaves_record_kept {event : Event n m} {before : Memory n m} {reading : List Nat}
    (hhistory : before.history = memory.history) (hinserts : before.inserts = memory.inserts)
    (hkept : event.free = none) : Leaves memory (before.record event) reading := by
  refine leaves_record hhistory hinserts fun insert _ hfree => ?_
  rw [hkept] at hfree
  cases hfree

theorem unread_record {event : Event n m} (memory : Memory n m) {i : Fin n}
    (hunread : ∀ insert, .staleRead i insert ∉ memory.history)
    (hevent : ∀ insert, event ≠ .staleRead i insert) (insert : Nat) :
    .staleRead i insert ∉ (memory.record event).history := by
  intro hmem
  rcases List.mem_append.mp hmem with hbefore | hnew
  · exact hunread insert hbefore
  · exact hevent insert (List.mem_singleton.mp hnew).symm

end Memories

/-! ## The steps -/

structure Fresh (s : State n m) : Prop where
  accounted : Accounted s
  counted : ∀ i, Counted s.memory (s.pollers i)
  read : ∀ i insert, .staleRead i insert ∉ s.memory.history

section Steps

variable {s next : State n m}

/-- What was pushed was allocated. -/
theorem Accounted.pushed_lt (accounted : Accounted s) {insert : Nat}
    (hpushed : insert ∈ s.memory.pushed) : insert < s.memory.inserts.length := by
  obtain ⟨place, hplace, -⟩ := accounted.pushed_place hpushed
  have htotal := Holdings.mem_total.mpr ⟨place, hplace⟩
  rw [accounted.total] at htotal
  exact Multiset.mem_range.mp htotal

/-- The insert in a poller's list is not freed. -/
theorem Accounted.not_freed (accounted : Accounted s) {insert : Nat} {i : Fin n}
    (hunhandled : insert ∈ (s.pollers i).unhandled) : insert ∉ s.memory.freed := by
  intro hfreed
  have hplace : insert ∈ s.holds (.unhandled i) := hunhandled
  have hother : insert ∈ s.holds .freed := hfreed
  cases accounted.place_unique hplace hother

theorem counted_update {i : Fin n} {memory : Memory n m} {queries : Queries}
    (hothers : ∀ k, k ≠ i → Counted memory (s.pollers k)) (hsame : Counted memory queries)
    (k : Fin n) : Counted memory (Function.update s.pollers i queries k) := by
  by_cases hki : k = i
  · rw [hki, Function.update_self]
    exact hsame
  · rw [Function.update_of_ne hki]
    exact hothers k hki

theorem Fresh.begins {i : Fin n} {hostQueries : Inserts} {memory : Memory n m}
    {queries : Queries} (fresh : Fresh s) (hpc : (s.pollers i).pc = .idle)
    (hbegin : beginQueries s.memory hostQueries = .ok (memory, queries)) :
    Fresh { s with memory := memory, pollers := Function.update s.pollers i queries } := by
  have accounted := fresh.accounted.begins hpc hbegin
  obtain ⟨inserts, rfl, -, -, hreading, hqueued, hvalues⟩ := beginQueries_ok hbegin
  refine ⟨accounted, counted_update (fun k _ => ?_) ?_, fresh.read⟩
  · refine (fresh.counted k).leaves ⟨fun _ => id, fun insert hinsert => ?_, fun _ _ => id⟩
    have hlt := fresh.accounted.pushed_lt hinsert
    unfold Memory.nvalues
    rw [List.getElem?_append_left hlt]
  · constructor
    · rw [hreading]
      exact nofun
    · rw [hqueued]
      exact nofun
    · rw [hreading, hqueued, hvalues]
      rfl

theorem Fresh.polls {i : Fin n} {garbage : UInt32} {memory : Memory n m} {queries : Queries}
    (fresh : Fresh s) (effect : QueriesEffect i garbage s.memory memory (s.pollers i) queries) :
    Fresh { s with memory := memory, pollers := Function.update s.pollers i queries } := by
  have accounted := fresh.accounted.polls effect
  have counted := fresh.counted i
  cases effect with
  | moves hmemory _ _ hreading hqueued =>
      subst hmemory
      refine ⟨accounted, counted_update (fun k _ => fresh.counted k) ?_, fresh.read⟩
      rcases hqueued with hqueued | rfl
      · exact counted.congr hreading hqueued
      · exact counted_idle _
  | pushes insert queue _ hmemory hunhandled _ hreading hqueued =>
      subst hmemory
      have hmem : insert ∈ (s.pollers i).unhandled := hunhandled ▸ List.mem_cons_self
      have hpushed : insert ∈
          Memory.pushed ({ s.memory with queue := queue }.record (.pushed i insert)) := by
        rw [Memory.pushed, Memory.pushes, filterMap_record, List.map_append]
        exact List.mem_append_right _ (List.mem_singleton_self _)
      have leaves : ∀ reading, Leaves s.memory
          ({ s.memory with queue := queue }.record (.pushed i insert)) reading :=
        fun _ => leaves_record_kept rfl rfl rfl
      refine ⟨accounted, counted_update (fun k _ => (fresh.counted k).leaves (leaves _)) ?_, ?_⟩
      · refine (counted.leaves (leaves _)).pushes hpushed ?_ hreading hqueued
        exact (leaves [insert]).freed insert (List.mem_singleton_self _)
          (fresh.accounted.not_freed hmem)
      · exact fun k => unread_record _ (fresh.read k) (by simp)
  | refuses insert hmemory _ _ hreading hqueued =>
      subst hmemory
      have leaves : ∀ reading, Leaves s.memory (s.memory.record (.refused i insert)) reading :=
        fun _ => leaves_record_kept rfl rfl rfl
      exact ⟨accounted, counted_update (fun k _ => (fresh.counted k).leaves (leaves _))
        ((counted.leaves (leaves _)).congr hreading hqueued),
        fun k => unread_record _ (fresh.read k) (by simp)⟩
  | reads insert _ hmemory _ _ hreading hqueued =>
      subst hmemory
      exact ⟨accounted,
        counted_update (fun k _ => fresh.counted k) (counted.reads hreading hqueued),
        fresh.read⟩
  | readsStale insert hinsert _ _ _ hreading =>
      have hmem : insert ∈ (s.pollers i).reading := hreading ▸ List.mem_singleton_self _
      exact absurd hinsert (counted.reading insert hmem).2
  | frees insert hmemory hunhandled _ hreading hqueued =>
      subst hmemory
      have hnew := fresh.accounted.not_pushed (i := i) (hunhandled ▸ List.mem_cons_self)
      have leaves : ∀ k, Leaves s.memory (s.memory.record (.freedByPoller i insert))
          (s.pollers k).reading := by
        refine fun k => leaves_record rfl rfl fun other hother hfree => ?_
        cases hfree
        exact hnew ((fresh.counted k).reading insert hother).1
      exact ⟨accounted, counted_update (fun k _ => (fresh.counted k).leaves (leaves k))
        ((counted.leaves (leaves i)).congr hreading hqueued),
        fun k => unread_record _ (fresh.read k) (by simp)⟩

theorem Fresh.answers {j : Fin m} {succeeds : Bool} {memory : Memory n m} {draining : Draining}
    (fresh : Fresh s) (hguard : ReadBeforeFreed (.database j succeeds) s)
    (effect : DrainingEffect j succeeds s.memory memory (s.databases j) draining) :
    Fresh { s with memory := memory, databases := Function.update s.databases j draining } := by
  have accounted := fresh.accounted.answers effect
  have silent : ∀ after : Memory n m, after.history = s.memory.history →
      after.inserts = s.memory.inserts →
      (∀ i, Counted after (s.pollers i)) ∧ ∀ i insert, .staleRead i insert ∉ after.history := by
    intro after hhistory hinserts
    refine ⟨fun i => (fresh.counted i).leaves (leaves_same hhistory hinserts), ?_⟩
    rw [hhistory]
    exact fresh.read
  have recorded : ∀ (before : Memory n m) (event : Event n m),
      before.history = s.memory.history → before.inserts = s.memory.inserts →
      (∀ i insert, event ≠ .staleRead i insert) → event.free = none →
      (∀ i, Counted (before.record event) (s.pollers i)) ∧
        ∀ i insert, .staleRead i insert ∉ (before.record event).history := by
    intro before event hhistory hinserts hevent hkept
    refine ⟨fun i => (fresh.counted i).leaves (leaves_record_kept hhistory hinserts hkept),
      fun i => unread_record before ?_ (hevent i)⟩
    rw [hhistory]
    exact fresh.read i
  cases effect with
  | moves hmemory =>
      rcases hmemory with rfl | rfl
      · exact ⟨accounted, fresh.counted, fresh.read⟩
      · obtain ⟨hcounted, hread⟩ := recorded s.memory (.committed j) rfl rfl (by simp) rfl
        exact ⟨accounted, hcounted, hread⟩
  | pops insert queue _ hmemory =>
      subst hmemory
      obtain ⟨hcounted, hread⟩ := recorded { s.memory with queue := queue } (.popped j insert)
        rfl rfl (by simp) rfl
      exact ⟨accounted, hcounted, hread⟩
  | popsNothing queue _ hmemory =>
      subst hmemory
      obtain ⟨hcounted, hread⟩ := silent { s.memory with queue := queue } rfl rfl
      exact ⟨accounted, hcounted, hread⟩
  | answers insert event hevent hmemory =>
      subst hmemory
      have hsilent : (∀ i insert, event ≠ .staleRead i insert) ∧ event.free = none := by
        rcases hevent with rfl | ⟨succeeded, rfl, -⟩
        · exact ⟨by simp, rfl⟩
        · exact ⟨by simp, rfl⟩
      obtain ⟨hcounted, hread⟩ := recorded s.memory event rfl rfl hsilent.1 hsilent.2
      exact ⟨accounted, hcounted, hread⟩
  | fails fault hmemory =>
      subst hmemory
      obtain ⟨hcounted, hread⟩ := silent (s.memory.fail fault) rfl rfl
      exact ⟨accounted, hcounted, hread⟩
  | frees insert hmemory hpc =>
      subst hmemory
      refine ⟨accounted, fun i => (fresh.counted i).leaves (leaves_record rfl rfl ?_),
        fun i => unread_record _ (fresh.read i) (by simp)⟩
      intro other hother hfree
      cases hfree
      exact hguard i insert hother hpc

theorem Fresh.step {config : Rtgconf} {label : Label n m} (fresh : Fresh s)
    (hguard : ReadBeforeFreed label s) (hstep : step config label s = some next) :
    Fresh next := by
  have accounted := fresh.accounted.step hstep
  cases step_effect hstep with
  | begins i hostQueries memory queries hpc hbegin hnext =>
      subst hnext
      exact fresh.begins hpc hbegin
  | beginFails i hostQueries fault hnext =>
      subst hnext
      refine ⟨accounted, fun i => ?_, fresh.read⟩
      exact (fresh.counted i).leaves ⟨fun _ => id, fun _ _ => rfl, fun _ _ => id⟩
  | polls i garbage memory queries effect hnext =>
      subst hnext
      exact fresh.polls effect
  | drains j useDb hpc hnext =>
      subst hnext
      exact ⟨accounted, fresh.counted, fresh.read⟩
  | answers j succeeds memory draining effect hnext =>
      subst hnext
      exact fresh.answers hguard effect

theorem Fresh.readsFresh (fresh : Fresh s) : ReadsFresh s :=
  ⟨fresh.read, fun i insert hinsert => ((fresh.counted i).reading insert hinsert).2⟩

theorem Fresh.rowsCounted (fresh : Fresh s) : RowsCounted s := by
  intro i depth hpc statistics
  have hsum := (fresh.counted i).counted
  have hreading : (s.pollers i).reading = [] := by rw [Queries.reading, hpc]
  rw [hreading, List.map_nil, List.sum_nil, UInt32.add_zero] at hsum
  rw [← hsum]
  rfl

/-! ## After a step that frees too early -/

/-- The history only grows. -/
theorem history_grows {config : Rtgconf} {label : Label n m}
    (hstep : step config label s = some next) : s.memory.history <+: next.memory.history := by
  have record : ∀ event : Event n m, s.memory.history <+: s.memory.history ++ [event] :=
    fun event => List.prefix_append _ _
  cases step_effect hstep with
  | begins i hostQueries memory queries _ hbegin hnext =>
      subst hnext
      obtain ⟨inserts, rfl, -⟩ := beginQueries_ok hbegin
      exact List.prefix_refl _
  | beginFails i hostQueries fault hnext =>
      subst hnext
      exact List.prefix_refl _
  | polls i garbage memory queries effect hnext =>
      subst hnext
      cases effect with
      | moves hmemory => exact hmemory ▸ List.prefix_refl _
      | pushes _ _ _ hmemory => exact hmemory ▸ record _
      | refuses _ hmemory => exact hmemory ▸ record _
      | reads _ _ hmemory => exact hmemory ▸ List.prefix_refl _
      | readsStale _ _ hmemory => exact hmemory ▸ record _
      | frees _ hmemory => exact hmemory ▸ record _
  | drains j useDb _ hnext =>
      subst hnext
      exact List.prefix_refl _
  | answers j succeeds memory draining effect hnext =>
      subst hnext
      cases effect with
      | moves hmemory =>
          rcases hmemory with rfl | rfl
          · exact List.prefix_refl _
          · exact record _
      | pops _ _ _ hmemory => exact hmemory ▸ record _
      | popsNothing _ _ hmemory => exact hmemory ▸ List.prefix_refl _
      | answers _ _ _ hmemory => exact hmemory ▸ record _
      | fails _ hmemory => exact hmemory ▸ List.prefix_refl _
      | frees _ hmemory => exact hmemory ▸ record _

theorem freed_grows (hhistory : s.memory.history <+: next.memory.history) {insert : Nat}
    (hfreed : insert ∈ s.memory.freed) : insert ∈ next.memory.freed := by
  obtain ⟨events, hevents⟩ := hhistory
  rw [Memory.freed, ← hevents, List.filterMap_append]
  exact List.mem_append_left _ hfreed

/-- A poller that is about to read a freed insert stays so until it reads it. -/
theorem notFresh_step {config : Rtgconf} {label : Label n m} (hstale : ¬ ReadsFresh s)
    (hstep : step config label s = some next) : ¬ ReadsFresh next := by
  intro hfresh
  have hgrows := history_grows hstep
  refine hstale ⟨fun i insert hread => hfresh.read i insert (hgrows.subset hread),
    fun i insert hinsert hfreed => ?_⟩
  have hstays : (next.pollers i).reading ≠ (s.pollers i).reading := fun hsame =>
    hfresh.reading i insert (hsame.symm ▸ hinsert) (freed_grows hgrows hfreed)
  have hother : ∀ {k : Fin n} {queries : Queries},
      next.pollers = Function.update s.pollers k queries → i = k := by
    intro k queries hpollers
    by_contra hik
    rw [hpollers, Function.update_of_ne hik] at hstays
    exact hstays rfl
  cases step_effect hstep with
  | begins k hostQueries memory queries hpc _ hnext =>
      subst hnext
      obtain rfl : i = k := hother rfl
      rw [Queries.reading, hpc] at hinsert
      exact List.not_mem_nil hinsert
  | beginFails k hostQueries fault hnext =>
      subst hnext
      exact hstays rfl
  | polls k garbage memory queries effect hnext =>
      subst hnext
      obtain rfl : i = k := hother rfl
      have hafter : (Function.update s.pollers i queries i).reading = queries.reading := by
        rw [Function.update_self]
      rw [hafter] at hstays
      cases effect with
      | moves _ _ _ hreading => exact hstays hreading
      | pushes _ _ _ _ _ _ hreading =>
          rw [hreading.1] at hinsert
          exact List.not_mem_nil hinsert
      | refuses _ _ _ _ hreading => exact hstays hreading
      | reads other hother _ _ _ hreading =>
          rw [hreading.1] at hinsert
          exact hother (List.mem_singleton.mp hinsert ▸ hfreed)
      | readsStale other _ hmemory =>
          refine hfresh.read i other ?_
          rw [hmemory]
          exact List.mem_append_right _ (List.mem_singleton_self _)
      | frees _ _ _ _ hreading => exact hstays hreading
  | drains j useDb _ hnext =>
      subst hnext
      exact hstays rfl
  | answers j succeeds memory draining _ hnext =>
      subst hnext
      exact hstays rfl

/-- A step that frees too early leaves a poller with a freed insert to read. -/
theorem notFresh_of_unguarded {config : Rtgconf} {label : Label n m}
    (hguard : ¬ ReadBeforeFreed label s) (hstep : step config label s = some next) :
    ¬ ReadsFresh next := by
  intro hfresh
  cases label with
  | begin | poller | drain => exact hguard trivial
  | database j succeeds =>
      refine hguard fun i insert hinsert hpc => ?_
      unfold step at hstep
      split at hstep
      · cases hstep
      · dsimp only at hstep
        rw [drainStep, hpc] at hstep
        cases hstep
        refine hfresh.reading i insert hinsert ?_
        change insert ∈ Memory.freed (s.memory.record (.freedByDatabase j insert))
        rw [Memory.freed, filterMap_record]
        exact List.mem_append_right _ (List.mem_singleton_self _)

end Steps

/-! ## All runs -/

theorem fresh_start (size : UInt32) (hsize : 0 < size.toNat) :
    Fresh (State.start size hsize : State n m) :=
  ⟨accounted_start size hsize, fun _ => counted_idle _, nofun⟩

theorem fresh_keeps (config : Rtgconf) :
    Transition.Keeps (step config) ReadBeforeFreed (Fresh (n := n) (m := m)) :=
  fun _ _ _ hguard fresh hstep => fresh.step hguard hstep

/-- The pollers read no freed insert exactly if no database thread frees one in
front of its poller's read, and then the rows are counted as pushed. -/
theorem reads_fresh_iff {config : Rtgconf} {size : UInt32} (hsize : 0 < size.toNat)
    {labels : List (Label n m)} {final : State n m}
    (hrun : Transition.run (step config) labels (State.start size hsize) = some final) :
    (ReadsFresh final ↔
      Transition.Guarded (step config) ReadBeforeFreed labels (State.start size hsize)) ∧
      (ReadsFresh final → RowsCounted final) := by
  have hiff : ReadsFresh final ↔
      Transition.Guarded (step config) ReadBeforeFreed labels (State.start size hsize) := by
    constructor
    · intro hfresh
      exact Transition.guarded_of_unmarked (accounted_keeps config)
        (fun _ _ _ _ hstale hstep => notFresh_step hstale hstep)
        (fun _ _ _ _ hguard hstep => notFresh_of_unguarded hguard hstep)
        (accounted_start size hsize) hrun (not_not.mpr hfresh)
    · exact fun guarded =>
        ((fresh_keeps config).run guarded (fresh_start size hsize) hrun).readsFresh
  refine ⟨hiff, fun hfresh => ?_⟩
  exact ((fresh_keeps config).run (hiff.mp hfresh) (fresh_start size hsize) hrun).rowsCounted

/-- A poller pushes an insert with one value and reads its `nvalues`; a database
thread drains the queue before the poller's update of the statistics. -/
def readFirst : List (Label 1 1) :=
  [.begin onlyThread (quietInserts 1)] ++ List.replicate 4 (.poller onlyThread 0) ++
    [.drain onlyThread true] ++ List.replicate 4 (.database onlyThread true) ++
    List.replicate 2 (.poller onlyThread 0)

theorem reads_fresh_iff_readFirst :
    ∃ final, Transition.run (step defaultRtgconf) readFirst
        (State.start 1 (by decide)) = some final ∧
      ((final.pollers onlyThread).pc = .update 0 ∧ (final.pollers onlyThread).queued = [0]) ∧
      (ReadsFresh final ↔ Transition.Guarded (step defaultRtgconf) ReadBeforeFreed readFirst
        (State.start 1 (by decide))) ∧
      (ReadsFresh final → RowsCounted final) :=
  ⟨_, rfl, ⟨rfl, rfl⟩, reads_fresh_iff (by decide) (rfl :
    Transition.run (step defaultRtgconf) readFirst (State.start 1 (by decide)) = some _)⟩

/-- The database thread drains the queue between the push and the read, which
then finds 4096. -/
def freedFirst : List (Label 1 1) :=
  [.begin onlyThread (quietInserts 1)] ++ List.replicate 3 (.poller onlyThread 0) ++
    [.drain onlyThread true] ++ List.replicate 4 (.database onlyThread true) ++
    List.replicate 3 (.poller onlyThread 4096)

/-- The poller reads a freed insert and counts more rows than the one it has
pushed. -/
theorem freedFirst_read_stale :
    ∃ final, Transition.run (step defaultRtgconf) freedFirst
        (State.start 1 (by decide)) = some final ∧
      .staleRead onlyThread 0 ∈ final.memory.history ∧
      ¬ ReadsFresh final ∧ ¬ RowsCounted final := by
  have hrun : ∃ final, Transition.run (step defaultRtgconf) freedFirst
        (State.start 1 (by decide)) = some final ∧
      .staleRead onlyThread 0 ∈ final.memory.history ∧ (final.pollers onlyThread).pc = .update 0 ∧
      (Statistics.initial.addQueries ((final.pollers onlyThread).totals 0)).insertRows = 4096 ∧
      ((final.pollers onlyThread).queued.map final.memory.nvalues).sum = 1 :=
    ⟨_, rfl, by decide, rfl, rfl, rfl⟩
  obtain ⟨final, hrun, hread, hpc, hrows, hsum⟩ := hrun
  refine ⟨final, hrun, hread, fun hfresh => hfresh.read onlyThread 0 hread, fun hcounted => ?_⟩
  have hequal := hcounted onlyThread 0 hpc Statistics.initial
  rw [hrows, hsum] at hequal
  exact absurd hequal (by decide)

end Reads

end ClusteredPoller.Handover
