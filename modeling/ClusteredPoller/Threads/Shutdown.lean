import ClusteredPoller.Threads.HostExclusion
import ClusteredPoller.Threads.Lock

/-!
# Stopping the threads

A handler writes to the log, sets the stop flag, takes the lock and wakes the
waiting pollers.  Two things can go wrong.  A poller that has tested the flag
before it was set may enter its wait when the broadcast is over.  And a handler
that interrupts the owner of `global_lock` or of `cerr_lock` waits for itself.
-/

namespace ClusteredPoller.Threads

open Library Library.Transition Poller State

variable {n : Nat} {config : Rtgconf} {s next : State n}

/-! ## Threads that are blocked for good -/

def Label.isSignal : Label n → Bool
  | .signal _ _ => true
  | _ => false

/-- Steps without a further signal lead from one state to the other. -/
def Continues (config : Rtgconf) : State n → State n → Prop :=
  Reaches (step config) fun label => label.isSignal = false

/-- Whatever the threads do, none of them broadcasts any more. -/
def NoBroadcastAhead (config : Rtgconf) (s : State n) : Prop :=
  ∀ final, Continues config s final → final.broadcasts = s.broadcasts

/-- The poller waits, has not been woken, and will not be. -/
def WaitsForever (config : Rtgconf) (s : State n) (i : Fin n) : Prop :=
  (∃ seen, (s.pollers i).pc = .waiting seen ∧ s.broadcasts ≤ seen) ∧ NoBroadcastAhead config s

/-- The thread waits for a lock that it owns. -/
def SelfDeadlocked (s : State n) (thread : ThreadId n) : Prop :=
  (s.globalLock = some thread ∧ s.wantsLock thread = true) ∨
    (s.cerrLock = some thread ∧ s.wantsCerrLock thread = true)

/-- A stop was requested, and some thread will never see it.  A handler's
broadcast is over for the poller that waits forever, and out of reach behind a
lock that is never given back. -/
structure Stranded (config : Rtgconf) (s : State n) : Prop where
  running : s.fault = none
  stop : s.threadStopRequested = true
  blocked : (∃ i, WaitsForever config s i) ∨ ∃ thread, SelfDeadlocked s thread

/-! ## The condition -/

/-- Some handler has still to broadcast. -/
def BroadcastPending (s : State n) : Prop :=
  ∃ thread, ∃ frame ∈ s.handlers thread, frame ≠ .unlock

/-- No signal arrives on the thread that owns one of the locks, and no poller
begins to wait after a stop request whose broadcast is over. -/
def StopsCleanly : Label n → State n → Prop
  | .signal thread _, s => s.globalLock ≠ some thread ∧ s.cerrLock ≠ some thread
  | .poller i _, s =>
      (s.pollers i).pc = .condWait → s.threadStopRequested = true → BroadcastPending s
  | _, _ => True

theorem StopsCleanly.sparesOwner {label : Label n} (clean : StopsCleanly label s) :
    SparesOwner label s := by
  cases label with
  | signal thread signal => exact clean.1
  | _ => trivial

theorem StopsCleanly.sparesWriter {label : Label n} (clean : StopsCleanly label s) :
    SparesWriter label s := by
  cases label with
  | signal thread signal => exact clean.2
  | _ => trivial

/-! ## Pending broadcasts -/

theorem broadcastPending_congr (hhandlers : next.handlers = s.handlers)
    (pending : BroadcastPending s) : BroadcastPending next := by
  rw [BroadcastPending, hhandlers]
  exact pending

/-- The frames of one thread change, and those that are pending stay. -/
theorem broadcastPending_update {thread : ThreadId n} {after : List HandlerPc}
    (hafter : next.handlers = Function.update s.handlers thread after)
    (hkept : ∀ frame ∈ s.handlers thread, frame ≠ .unlock →
      ∃ frame' ∈ after, frame' ≠ .unlock)
    (pending : BroadcastPending s) : BroadcastPending next := by
  obtain ⟨other, frame, hframe, hunlock⟩ := pending
  by_cases hsame : other = thread
  · subst hsame
    obtain ⟨frame', hframe', hunlock'⟩ := hkept frame hframe hunlock
    refine ⟨other, frame', ?_, hunlock'⟩
    rw [hafter, Function.update_self]
    exact hframe'
  · refine ⟨other, frame, ?_, hunlock⟩
    rw [hafter, Function.update_of_ne hsame]
    exact hframe

/-- A handler's step broadcasts, or leaves all broadcasts to be done. -/
theorem handlerStep_pending {thread : ThreadId n} (hstep : handlerStep thread s = some next)
    (pending : BroadcastPending s) :
    BroadcastPending next ∨ next.broadcasts = s.broadcasts + 1 := by
  cases handlerStep_frameStep hstep with
  | advances frame after frames hbefore hafter hpending _ _ =>
      refine Or.inl ⟨thread, after, ?_, hpending⟩
      rw [hafter, Function.update_self]
      exact List.mem_cons_self
  | broadcasts frames _ _ hbroadcasts _ => exact Or.inr hbroadcasts
  | returns frames hbefore hafter _ _ _ =>
      refine Or.inl (broadcastPending_update hafter (fun frame hframe hunlock => ?_) pending)
      rw [hbefore] at hframe
      exact ⟨frame, (List.mem_cons.mp hframe).resolve_left hunlock, hunlock⟩

theorem step_pending {label : Label n} (hstep : step config label s = some next)
    (pending : BroadcastPending s) : BroadcastPending next ∨ s.broadcasts < next.broadcasts := by
  obtain ⟨_, effect⟩ := step_effect hstep
  cases effect with
  | ticks _ hnext | calls _ _ _ hnext | logs _ _ _ _ hnext =>
      subst hnext
      exact Or.inl pending
  | polls i meets _ _ _ houtside =>
      exact Or.inl (broadcastPending_congr (congrArg Outside.handlers houtside) pending)
  | monitors _ _ effect => exact Or.inl (broadcastPending_congr effect.handlers pending)
  | handles thread hhandler _ =>
      rcases handlerStep_pending hhandler pending with hstill | hdone
      · exact Or.inl hstill
      · exact Or.inr (hdone ▸ Nat.lt_succ_self _)
  | signals thread signal _ hnext =>
      refine Or.inl (@broadcastPending_update n s next thread _ (by rw [hnext]) ?_ pending)
      exact fun frame hframe hunlock => ⟨frame, List.mem_cons_of_mem _ hframe, hunlock⟩

theorem handlerStep_broadcasts {thread : ThreadId n} (hstep : handlerStep thread s = some next) :
    s.broadcasts ≤ next.broadcasts := by
  cases handlerStep_frameStep hstep with
  | advances _ _ _ _ _ _ hbroadcasts _ => exact hbroadcasts.ge
  | broadcasts _ _ _ hbroadcasts _ => exact hbroadcasts ▸ Nat.le_succ _
  | returns _ _ _ hbroadcasts _ _ => exact hbroadcasts.ge

theorem step_broadcasts {label : Label n} (hstep : step config label s = some next) :
    s.broadcasts ≤ next.broadcasts := by
  obtain ⟨_, effect⟩ := step_effect hstep
  cases effect with
  | ticks _ hnext | calls _ _ _ hnext | logs _ _ _ _ hnext | signals _ _ _ hnext =>
      subst hnext
      exact Nat.le_refl _
  | polls i meets _ _ _ houtside => exact (congrArg Outside.broadcasts houtside).ge
  | monitors _ _ effect => exact effect.broadcasts
  | handles thread hhandler _ => exact handlerStep_broadcasts hhandler

/-! ## The owner of the lock gives it back -/

theorem step_poller {i : Fin n} {meets : Meeting} (hfault : s.fault = none)
    (hready : s.Ready (.poller i)) :
    step config (.poller i meets) s = pollerStep config i meets s := by
  unfold step
  rw [hfault, Option.isSome_none, if_neg Bool.false_ne_true]
  exact if_pos hready

theorem step_monitor (hfault : s.fault = none) (hready : s.Ready .monitor) :
    step config .monitor s = monitorStep config s := by
  unfold step
  rw [hfault, Option.isSome_none, if_neg Bool.false_ne_true]
  exact if_pos hready

theorem step_cllog {thread : ThreadId n} (hfault : s.fault = none) :
    step config (.cllog thread) s = cllogStep thread s := by
  unfold step
  rw [hfault, Option.isSome_none, if_neg Bool.false_ne_true]

theorem step_handler {thread : ThreadId n} (hfault : s.fault = none) :
    step config (.handler thread) s = handlerStep thread s := by
  unfold step
  rw [hfault, Option.isSome_none, if_neg Bool.false_ne_true]

/-- No step of a critical section waits or fails. -/
theorem poller_critical_enabled {i : Fin n} {meets : Meeting}
    (hcritical : 0 < (s.pollers i).pc.critical) :
    ∃ next, pollerStep config i meets s = some next ∧ next.fault = s.fault := by
  rw [pollerStep]
  cases hpc : (s.pollers i).pc with
  | inactiveCount | inactiveLast | condWait | inactiveUnlock | activeCount | activeUnlock =>
      exact ⟨_, rfl, rfl⟩
  | processing host round stage =>
      rw [hpc] at hcritical
      cases stage with
      | snmpUpdate | snmpUnlock | statsUpdate | statsUnlock => exact ⟨_, rfl, rfl⟩
      | _ => exact absurd hcritical (Nat.lt_irrefl 0)
  | _ =>
      rw [hpc] at hcritical
      exact absurd hcritical (Nat.lt_irrefl 0)

theorem monitor_critical_enabled (hcritical : 0 < s.monitor.pc.critical) :
    ∃ next, monitorStep config s = some next ∧ next.fault = s.fault := by
  rw [monitorStep]
  cases hpc : s.monitor.pc with
  | startReset | startBroadcast | startUnlock | endWait | endUnlock => exact ⟨_, rfl, rfl⟩
  | _ =>
      rw [hpc] at hcritical
      exact absurd hcritical (Nat.lt_irrefl 0)

theorem handler_critical_enabled {thread : ThreadId n} {frame : HandlerPc}
    {frames : List HandlerPc} (hframes : s.handlers thread = frame :: frames)
    (hcritical : 0 < frame.critical) :
    ∃ next, handlerStep thread s = some next ∧ next.fault = s.fault ∧
      next.cerrLock = s.cerrLock := by
  unfold handlerStep
  rw [hframes]
  cases frame with
  | broadcast | unlock => exact ⟨_, rfl, rfl, rfl⟩
  | _ => exact absurd hcritical (Nat.lt_irrefl 0)

/-! The owner of `global_lock` may wait for `cerr_lock`, but nobody waits for
anything while writing to the log. -/

/-- The steps that a thread's own code still makes in `cllog`, with one for the
lock that it takes there. -/
def LogPc.left : LogPc → Nat
  | .outside => 0
  | .lock => 3
  | .unlock => 1

def State.logLeft (s : State n) (thread : ThreadId n) : Nat :=
  if s.handlers thread = [] then (s.logging thread).left else 0

/-- The steps of its owner until `global_lock` is free. -/
def State.globalLeft (s : State n) : Nat :=
  match s.globalLock with
  | none => 0
  | some thread => 4 * s.critical thread + s.logLeft thread

/-- The steps until both locks are free. -/
def ownerSteps (s : State n) : Nat :=
  s.globalLeft + if s.cerrLock = none then 0 else 1

theorem globalLeft_of_owner {thread : ThreadId n} (howner : s.globalLock = some thread) :
    s.globalLeft = 4 * s.critical thread + s.logLeft thread := by
  rw [State.globalLeft, howner]

theorem globalLeft_of_free (hfree : s.globalLock = none) : s.globalLeft = 0 := by
  rw [State.globalLeft, hfree]

theorem globalLeft_le (hlock : next.globalLock = s.globalLock)
    (howner : ∀ thread, s.globalLock = some thread →
      next.critical thread = s.critical thread ∧ next.logLeft thread ≤ s.logLeft thread) :
    next.globalLeft ≤ s.globalLeft := by
  cases howned : s.globalLock with
  | none => rw [globalLeft_of_free (hlock.trans howned), globalLeft_of_free howned]
  | some thread =>
      obtain ⟨hcritical, hlog⟩ := howner thread howned
      rw [globalLeft_of_owner (hlock.trans howned), globalLeft_of_owner howned, hcritical]
      exact Nat.add_le_add_left hlog _

theorem logLeft_lt (s : State n) (thread : ThreadId n) : s.logLeft thread < 4 := by
  unfold State.logLeft
  split
  · cases s.logging thread <;> decide
  · decide

theorem logLeft_congr {thread : ThreadId n} (hhandlers : next.handlers thread = s.handlers thread)
    (hlogging : next.logging thread = s.logging thread) :
    next.logLeft thread = s.logLeft thread := by
  rw [State.logLeft, State.logLeft, hhandlers, hlogging]

theorem logLeft_goLogging {thread : ThreadId n} (hidle : s.handlers thread = []) (pc : LogPc) :
    (s.goLogging thread pc).logLeft thread = pc.left := by
  have hafter : (s.goLogging thread pc).handlers thread = [] := hidle
  rw [State.logLeft, if_pos hafter]
  exact congrArg LogPc.left (Function.update_self _ _ _)

theorem logLeft_of_idle {thread : ThreadId n} (hidle : s.handlers thread = []) :
    s.logLeft thread = (s.logging thread).left := by
  rw [State.logLeft, if_pos hidle]

/-- A step without a signal brings both locks closer to being free. -/
def Shortens (config : Rtgconf) (s : State n) : Prop :=
  ∃ label next, label.isSignal = false ∧ step config label s = some next ∧ next.fault = none ∧
    ownerSteps next < ownerSteps s

/-- `cerr_lock` is given back. -/
theorem shortens_of_written (label : Label n) (hquiet : label.isSignal = false)
    (hstep : step config label s = some next) (hrunning : next.fault = none)
    (htaken : s.cerrLock ≠ none) (hfree : next.cerrLock = none)
    (hleft : next.globalLeft ≤ s.globalLeft) : Shortens config s := by
  refine ⟨label, next, hquiet, hstep, hrunning, ?_⟩
  rw [ownerSteps, ownerSteps, if_pos hfree, if_neg htaken]
  exact Nat.lt_succ_of_le hleft

/-- The owner of `global_lock` makes a step of its critical section. -/
theorem shortens_of_lockStep {thread : ThreadId n} {label : Label n} (sound : LockSound s)
    (howner : s.globalLock = some thread) (hquiet : label.isSignal = false)
    (hstep : step config label s = some next) (hrunning : next.fault = none)
    (hcerr : next.cerrLock = s.cerrLock)
    (lock : LockStep thread s next (s.critical thread) (next.critical thread)) :
    Shortens config s := by
  have hcritical := (sound.owner thread).mp howner
  refine ⟨label, next, hquiet, hstep, hrunning, ?_⟩
  rw [ownerSteps, ownerSteps, hcerr, globalLeft_of_owner howner]
  refine Nat.add_lt_add_right ?_ _
  cases lock with
  | acquires hfree => exact absurd (hfree.symm.trans howner) (by simp)
  | outside _ hbefore => exact absurd hcritical (hbefore ▸ Nat.lt_irrefl 0)
  | inside hlock hbefore _ =>
      have hlog := logLeft_lt next thread
      rw [globalLeft_of_owner (hlock.trans howner)]
      omega
  | releases hlock _ _ =>
      rw [globalLeft_of_free hlock]
      omega

/-- Who writes to the log goes on, whatever the others do. -/
theorem writer_shortens {thread : ThreadId n} (sound : LockSound s) (cerr : CerrSound s)
    (hfault : s.fault = none) (hwriter : s.cerrLock = some thread) : Shortens config s := by
  have hwriting := (cerr.owner thread).mp hwriter
  have htaken : s.cerrLock ≠ none := by
    rw [hwriter]
    exact Option.some_ne_none thread
  cases hframes : s.handlers thread with
  | cons frame frames =>
      rw [writing_of_handler hframes] at hwriting
      cases frame with
      | cllogUnlock signal =>
          have hstep : handlerStep thread s = some
              { s.releaseCerr with
                handlers :=
                  Function.update s.handlers thread (.requestStop signal :: frames) } := by
            unfold handlerStep
            rw [hframes]
            rfl
          refine shortens_of_written (.handler thread) rfl
            ((step_handler hfault).trans hstep) hfault htaken rfl
            (globalLeft_le rfl fun owner howner => ?_)
          have hother : owner ≠ thread := by
            rintro rfl
            have hcritical := (sound.owner owner).mp howner
            rw [critical_of_handler hframes] at hcritical
            exact Nat.lt_irrefl 0 hcritical
          have hsame := Function.update_of_ne hother (.requestStop signal :: frames) s.handlers
          refine ⟨Interrupts.critical_congr hsame rfl, Eq.le ?_⟩
          exact logLeft_congr hsame rfl
      | _ => exact absurd hwriting (Nat.lt_irrefl 0)
  | nil =>
      rw [writing_of_idle hframes] at hwriting
      cases hpc : s.logging thread with
      | unlock =>
          have hstep : cllogStep thread s = some (s.releaseCerr.goLogging thread .outside) := by
            unfold cllogStep
            rw [if_pos hframes, hpc]
          refine shortens_of_written (.cllog thread) rfl
            ((step_cllog hfault).trans hstep) hfault htaken rfl
            (globalLeft_le rfl fun owner _ => ⟨rfl, ?_⟩)
          by_cases hsame : owner = thread
          · rw [hsame, @logLeft_goLogging n s.releaseCerr thread hframes]
            exact Nat.zero_le _
          · refine Eq.le ?_
            exact logLeft_congr rfl (Function.update_of_ne hsame _ _)
      | _ =>
          rw [hpc] at hwriting
          exact absurd hwriting (Nat.lt_irrefl 0)

/-- The owner of `global_lock` goes on, if the log is free. -/
theorem owner_shortens {thread : ThreadId n} (sound : LockSound s) (cerr : CerrSound s)
    (hfault : s.fault = none) (howner : s.globalLock = some thread) (hfree : s.cerrLock = none) :
    Shortens config s := by
  have hcritical := (sound.owner thread).mp howner
  cases hframes : s.handlers thread with
  | cons frame frames =>
      rw [critical_of_handler hframes] at hcritical
      obtain ⟨next, hstep, hrunning, hcerr⟩ := handler_critical_enabled hframes hcritical
      exact @shortens_of_lockStep n config s next thread (.handler thread) sound howner rfl
        ((step_handler hfault).trans hstep) (hrunning.trans hfault) hcerr
        (handlerStep_lockStep sound hstep (handlerStep_effect hstep))
  | nil =>
      cases hpc : s.logging thread with
      | unlock =>
          have hwriting : 0 < s.writing thread := by
            rw [writing_of_idle hframes, hpc]
            exact Nat.zero_lt_one
          have hwriter := (cerr.owner thread).mpr hwriting
          rw [hfree] at hwriter
          cases hwriter
      | lock =>
          let locked := ({ s with cerrLock := some thread } : State n).goLogging thread .unlock
          have hstep : cllogStep thread s = some locked := by
            unfold cllogStep
            rw [if_pos hframes, hpc, acquireCerr, if_pos hfree]
            rfl
          refine ⟨.cllog thread, locked, rfl, (step_cllog hfault).trans hstep, hfault, ?_⟩
          have hafter : locked.globalLeft = 4 * s.critical thread + 1 :=
            (@globalLeft_of_owner n locked thread howner).trans
              (congrArg (4 * s.critical thread + ·) (logLeft_goLogging hframes .unlock))
          have hbefore : s.globalLeft = 4 * s.critical thread + 3 := by
            rw [globalLeft_of_owner howner, logLeft_of_idle hframes, hpc]
            rfl
          have htaken : locked.cerrLock ≠ none := Option.some_ne_none thread
          rw [ownerSteps, ownerSteps, hafter, hbefore, if_pos hfree, if_neg htaken]
          exact Nat.lt_succ_self _
      | outside =>
          rw [critical_of_idle hframes] at hcritical
          cases thread with
          | poller i =>
              obtain ⟨next, hstep, hrunning⟩ := @poller_critical_enabled n config s i {} hcritical
              have houtside := (pollerStep_effect hstep).2
              have hhandlers : next.handlers = s.handlers := congrArg Outside.handlers houtside
              have hidle : next.handlers (.poller i) = [] := by rw [hhandlers, hframes]
              refine @shortens_of_lockStep n config s next _ (.poller i {}) sound howner rfl
                ((step_poller hfault ⟨hframes, hpc⟩).trans hstep) (hrunning.trans hfault)
                (congrArg Outside.cerrLock houtside) ?_
              rw [critical_of_idle hframes, critical_of_idle hidle]
              exact pollerStep_lockStep hstep
          | monitor =>
              obtain ⟨next, hstep, hrunning⟩ := @monitor_critical_enabled n config s hcritical
              have effect := monitorStep_effect hstep
              have hidle : next.handlers .monitor = [] := by rw [effect.handlers, hframes]
              refine @shortens_of_lockStep n config s next _ .monitor sound howner rfl
                ((step_monitor hfault ⟨hframes, hpc⟩).trans hstep) (hrunning.trans hfault)
                effect.cerrLock ?_
              rw [critical_of_idle hframes, critical_of_idle hidle]
              exact monitorStep_lockStep hstep
          | other number => exact absurd hcritical (Nat.lt_irrefl 0)

/-- What holds on the way to a broadcast, after a number of them. -/
structure OnTheWay (done : Nat) (s : State n) : Prop where
  sound : LockSound s
  cerr : CerrSound s
  running : s.fault = none
  counted : done ≤ s.broadcasts
  pending : BroadcastPending s ∨ done < s.broadcasts

/-- Unless a broadcast comes first, both locks become free. -/
theorem locks_become_free {done : Nat} (onTheWay : OnTheWay done s) :
    ∃ final, Continues config s final ∧ OnTheWay done final ∧
      (done < final.broadcasts ∨ (final.globalLock = none ∧ final.cerrLock = none)) := by
  refine reaches_of_variant ownerSteps ?_ onTheWay
  intro s onTheWay hshort
  rw [not_or] at hshort
  have shortens : Shortens config s := by
    cases hcerr : s.cerrLock with
    | some thread => exact writer_shortens onTheWay.sound onTheWay.cerr onTheWay.running hcerr
    | none =>
        obtain ⟨thread, howner⟩ :=
          Option.ne_none_iff_exists'.mp fun hfree => hshort.2 ⟨hfree, hcerr⟩
        exact owner_shortens onTheWay.sound onTheWay.cerr onTheWay.running howner hcerr
  obtain ⟨label, next, hquiet, hstep, hrunning, hless⟩ := shortens
  have hspares : SparesOwner label s ∧ SparesWriter label s := by
    cases label with
    | signal => cases hquiet
    | _ => exact ⟨trivial, trivial⟩
  have hcounted := Nat.le_trans onTheWay.counted (step_broadcasts hstep)
  refine ⟨label, next, hquiet, hstep, ⟨?_, ?_, hrunning, hcounted, ?_⟩, hless⟩
  · exact lockSound_step hspares.1 onTheWay.sound hstep
  · exact cerrSound_step hspares.2 onTheWay.cerr hstep
  · rcases step_pending hstep (onTheWay.pending.resolve_right hshort.1) with hstill | hmore
    · exact Or.inl hstill
    · exact Or.inr (Nat.lt_of_le_of_lt onTheWay.counted hmore)

/-! ## A pending broadcast is done -/

theorem continues_handler {thread : ThreadId n} (hfault : s.fault = none)
    (hstep : handlerStep thread s = some next) : Continues config s next :=
  Reaches.single rfl ((step_handler hfault).trans hstep)

/-- A step of a handler on the way to its broadcast. -/
theorem broadcasts_after {thread : ThreadId n} (hfault : s.fault = none)
    (hstep : handlerStep thread s = some next) (hsame : next.broadcasts = s.broadcasts)
    (later : ∃ final, Continues config next final ∧ next.broadcasts < final.broadcasts) :
    ∃ final, Continues config s final ∧ s.broadcasts < final.broadcasts := by
  obtain ⟨final, continues, hmore⟩ := later
  refine ⟨final, (continues_handler hfault hstep).trans continues, ?_⟩
  rw [← hsame]
  exact hmore

theorem broadcasts_from_broadcast {thread : ThreadId n} {frames : List HandlerPc}
    (hfault : s.fault = none) (hframes : s.handlers thread = .broadcast :: frames) :
    ∃ final, Continues config s final ∧ s.broadcasts < final.broadcasts := by
  let woken : State n :=
    { s with
      broadcasts := s.broadcasts + 1
      handlers := Function.update s.handlers thread (.unlock :: frames) }
  have hwakes : handlerStep thread s = some woken := by
    unfold handlerStep
    rw [hframes]
    rfl
  exact ⟨woken, continues_handler hfault hwakes, Nat.lt_succ_self _⟩

theorem broadcasts_from_lock {thread : ThreadId n} {frames : List HandlerPc}
    (hfault : s.fault = none) (hfree : s.globalLock = none)
    (hframes : s.handlers thread = .lock :: frames) :
    ∃ final, Continues config s final ∧ s.broadcasts < final.broadcasts := by
  let locked : State n :=
    { s with
      globalLock := some thread
      handlers := Function.update s.handlers thread (.broadcast :: frames) }
  have hlocks : handlerStep thread s = some locked := by
    unfold handlerStep
    rw [hframes]
    dsimp only
    rw [acquire, if_pos hfree]
    rfl
  apply broadcasts_after hfault hlocks rfl
  exact broadcasts_from_broadcast hfault (Function.update_self _ _ _)

theorem broadcasts_from_fullStop {thread : ThreadId n} {frames : List HandlerPc}
    (hfault : s.fault = none) (hfree : s.globalLock = none)
    (hframes : s.handlers thread = .requestFullStop :: frames) :
    ∃ final, Continues config s final ∧ s.broadcasts < final.broadcasts := by
  let stopped : State n :=
    { s with
      fullStopRequested := true
      handlers := Function.update s.handlers thread (.lock :: frames) }
  have hstops : handlerStep thread s = some stopped := by
    unfold handlerStep
    rw [hframes]
  apply broadcasts_after hfault hstops rfl
  exact broadcasts_from_lock hfault hfree (Function.update_self _ _ _)

theorem broadcasts_from_requestStop {thread : ThreadId n} {signal : Signal}
    {frames : List HandlerPc} (hfault : s.fault = none) (hfree : s.globalLock = none)
    (hframes : s.handlers thread = .requestStop signal :: frames) :
    ∃ final, Continues config s final ∧ s.broadcasts < final.broadcasts := by
  let stopped (after : HandlerPc) : State n :=
    { s with
      threadStopRequested := true
      handlers := Function.update s.handlers thread (after :: frames) }
  cases signal with
  | hup =>
      have hstops : handlerStep thread s = some (stopped .lock) := by
        unfold handlerStep
        rw [hframes]
      apply broadcasts_after hfault hstops rfl
      exact broadcasts_from_lock hfault hfree (Function.update_self _ _ _)
  | term =>
      have hstops : handlerStep thread s = some (stopped .requestFullStop) := by
        unfold handlerStep
        rw [hframes]
      apply broadcasts_after hfault hstops rfl
      exact broadcasts_from_fullStop hfault hfree (Function.update_self _ _ _)

theorem broadcasts_from_cllogUnlock {thread : ThreadId n} {signal : Signal}
    {frames : List HandlerPc} (hfault : s.fault = none) (hfree : s.globalLock = none)
    (hframes : s.handlers thread = .cllogUnlock signal :: frames) :
    ∃ final, Continues config s final ∧ s.broadcasts < final.broadcasts := by
  let written : State n :=
    { s.releaseCerr with
      handlers := Function.update s.handlers thread (.requestStop signal :: frames) }
  have hwritten : handlerStep thread s = some written := by
    unfold handlerStep
    rw [hframes]
    rfl
  apply broadcasts_after hfault hwritten rfl
  exact broadcasts_from_requestStop hfault hfree (Function.update_self _ _ _)

theorem broadcasts_from_cllogLock {thread : ThreadId n} {signal : Signal}
    {frames : List HandlerPc} (hfault : s.fault = none) (hfree : s.globalLock = none)
    (hcerr : s.cerrLock = none) (hframes : s.handlers thread = .cllogLock signal :: frames) :
    ∃ final, Continues config s final ∧ s.broadcasts < final.broadcasts := by
  let locked : State n :=
    { s with
      cerrLock := some thread
      handlers := Function.update s.handlers thread (.cllogUnlock signal :: frames) }
  have hlocks : handlerStep thread s = some locked := by
    unfold handlerStep
    rw [hframes]
    dsimp only
    rw [acquireCerr, if_pos hcerr]
    rfl
  apply broadcasts_after hfault hlocks rfl
  exact broadcasts_from_cllogUnlock hfault hfree (Function.update_self _ _ _)

/-- With the locks free, the topmost handler of a thread gets to its broadcast. -/
theorem broadcasts_from_free {thread : ThreadId n} {frame : HandlerPc} {frames : List HandlerPc}
    (hfault : s.fault = none) (hfree : s.globalLock = none) (hcerr : s.cerrLock = none)
    (hframes : s.handlers thread = frame :: frames) (houtside : frame.critical = 0) :
    ∃ final, Continues config s final ∧ s.broadcasts < final.broadcasts := by
  cases frame with
  | cllogLock signal => exact broadcasts_from_cllogLock hfault hfree hcerr hframes
  | cllogUnlock signal => exact broadcasts_from_cllogUnlock hfault hfree hframes
  | requestStop signal => exact broadcasts_from_requestStop hfault hfree hframes
  | requestFullStop => exact broadcasts_from_fullStop hfault hfree hframes
  | lock => exact broadcasts_from_lock hfault hfree hframes
  | broadcast | unlock => cases houtside

theorem pending_broadcasts (sound : LockSound s) (cerr : CerrSound s) (hfault : s.fault = none)
    (pending : BroadcastPending s) :
    ∃ final, Continues config s final ∧ s.broadcasts < final.broadcasts := by
  have start : OnTheWay s.broadcasts s := ⟨sound, cerr, hfault, Nat.le_refl _, Or.inl pending⟩
  obtain ⟨middle, first, onTheWay, hdone | ⟨hfree, hcerr⟩⟩ :=
    @locks_become_free n config s _ start
  · exact ⟨middle, first, hdone⟩
  · rcases onTheWay.pending with ⟨thread, frame, hframe, _⟩ | hdone
    · obtain ⟨top, frames, hframes⟩ := List.exists_cons_of_ne_nil (List.ne_nil_of_mem hframe)
      have houtside : top.critical = 0 := by
        rw [← critical_of_handler hframes]
        refine Nat.eq_zero_of_not_pos fun hpositive => ?_
        have howned := (onTheWay.sound.owner thread).mpr hpositive
        rw [hfree] at howned
        cases howned
      obtain ⟨final, second, hmore⟩ :=
        @broadcasts_from_free n config middle _ _ _ onTheWay.running hfree hcerr hframes houtside
      exact ⟨final, first.trans second, Nat.lt_of_le_of_lt onTheWay.counted hmore⟩
    · exact ⟨middle, first, hdone⟩

/-! ## The invariant -/

/-- The locks are where they should be, no poller has seen more broadcasts than
there were, and after a stop request a broadcast is pending for every poller
that still has to be woken. -/
structure WakesPending (s : State n) : Prop where
  lock : LockSound s
  cerr : CerrSound s
  seen : ∀ i seen, (s.pollers i).pc = .waiting seen → seen ≤ s.broadcasts
  pending : s.threadStopRequested = true → ∀ i seen, (s.pollers i).pc = .waiting seen →
    s.broadcasts ≤ seen → BroadcastPending s

theorem wakesPending_start (hosts : List Queryhost) (clock : Nat) (nextIteration : Int)
    (statistics : Statistics) :
    WakesPending (State.start hosts clock nextIteration statistics : State n) := by
  refine ⟨lockSound_start hosts clock nextIteration statistics,
    cerrSound_start hosts clock nextIteration statistics, ?_, ?_⟩
  · intro i seen impossible
    cases impossible
  · intro impossible
    cases impossible

/-- A poller that waits after a step was waiting before, or begins to wait. -/
theorem pollerEffect_waits {i : Fin n} (effect : PollerEffect i s next) (j : Fin n) {seen : Nat}
    (hwaits : (next.pollers j).pc = .waiting seen) :
    (s.pollers j).pc = .waiting seen ∨
      (j = i ∧ (s.pollers i).pc = .condWait ∧ seen = s.broadcasts) := by
  have hmoved : ∀ {poller : PollerThread},
      next.pollers = Function.update s.pollers i poller → poller.pc.seen = none →
      (s.pollers j).pc = .waiting seen := by
    intro poller hpollers hawake
    rw [hpollers] at hwaits
    by_cases hij : j = i
    · rw [hij, Function.update_self] at hwaits
      rw [hwaits] at hawake
      cases hawake
    · rw [Function.update_of_ne hij] at hwaits
      exact hwaits
  cases effect with
  | moves pc _ _ hpollers hseen =>
      rcases hseen with hawake | ⟨hbefore, hafter⟩
      · exact Or.inl (hmoved hpollers hawake)
      · rw [hpollers] at hwaits
        by_cases hij : j = i
        · rw [hij, Function.update_self, hafter] at hwaits
          cases hwaits
          exact Or.inr ⟨hij, hbefore, rfl⟩
        · rw [Function.update_of_ne hij] at hwaits
          exact Or.inl hwaits
  | leaves _ _ _ _ hpollers hafter => exact Or.inl (hmoved hpollers (hafter ▸ rfl))
  | enters _ _ _ hpollers hafter => exact Or.inl (hmoved hpollers (hafter ▸ rfl))
  | takes _ _ _ _ hpollers hafter => exact Or.inl (hmoved hpollers (hafter ▸ rfl))
  | leavesLoop _ _ _ _ _ hpollers hafter => exact Or.inl (hmoved hpollers (hafter ▸ rfl))
  | queries poller host round _ _ _ _ _ _ _ _ _ _ _ hpollers hafter _ =>
      refine Or.inl (hmoved hpollers ?_)
      cases hpc : poller.pc with
      | waiting =>
          rw [hpc] at hafter
          cases hafter
      | _ => rfl
  | finishes _ _ _ _ _ hpollers hafter => exact Or.inl (hmoved hpollers (hafter ▸ rfl))
  | endsRound _ _ hpollers => exact Or.inl (hmoved hpollers rfl)
  | returns _ _ _ _ hpollers hafter => exact Or.inl (hmoved hpollers (hafter ▸ rfl))
  | fails _ _ hpollers _ => exact Or.inl (hpollers ▸ hwaits)

theorem wakesPending_polls {i : Fin n} {meets : Meeting}
    (clean : StopsCleanly (.poller i meets) s) (wakes : WakesPending s) (lock : LockSound next)
    (cerr : CerrSound next) (effect : PollerEffect i s next) (houtside : next.outside = s.outside) :
    WakesPending next := by
  have hbroadcasts : next.broadcasts = s.broadcasts := congrArg Outside.broadcasts houtside
  have hhandlers : next.handlers = s.handlers := congrArg Outside.handlers houtside
  have hstop : next.threadStopRequested = s.threadStopRequested :=
    congrArg Outside.threadStopRequested houtside
  refine ⟨lock, cerr, ?_, ?_⟩
  · intro j seen hwaits
    rw [hbroadcasts]
    rcases pollerEffect_waits effect j hwaits with hbefore | ⟨_, _, hseen⟩
    · exact wakes.seen j seen hbefore
    · exact hseen.le
  · intro hrequested j seen hwaits hunwoken
    rw [hstop] at hrequested
    rw [hbroadcasts] at hunwoken
    refine broadcastPending_congr hhandlers ?_
    rcases pollerEffect_waits effect j hwaits with hbefore | ⟨_, hbegins, _⟩
    · exact wakes.pending hrequested j seen hbefore hunwoken
    · exact clean hbegins hrequested

theorem wakesPending_handles {thread : ThreadId n} (wakes : WakesPending s)
    (lock : LockSound next) (cerr : CerrSound next) (hstep : handlerStep thread s = some next)
    (effect : HandlerStep s next) : WakesPending next := by
  have hbroadcasts := handlerStep_broadcasts hstep
  refine ⟨lock, cerr, ?_, ?_⟩
  · intro j seen hwaits
    rw [effect.pollers] at hwaits
    exact Nat.le_trans (wakes.seen j seen hwaits) hbroadcasts
  · intro hrequested j seen hwaits hunwoken
    rw [effect.pollers] at hwaits
    cases handlerStep_frameStep hstep with
    | advances frame after frames _ hafter hpending _ _ =>
        refine ⟨thread, after, ?_, hpending⟩
        rw [hafter, Function.update_self]
        exact List.mem_cons_self
    | broadcasts frames _ _ hmore _ =>
        -- The broadcast wakes every poller that waits.
        have hseen := wakes.seen j seen hwaits
        rw [hmore] at hunwoken
        exact absurd (Nat.le_trans hunwoken hseen) (Nat.not_succ_le_self _)
    | returns frames hbefore hafter hsame hstop _ =>
        rw [hstop] at hrequested
        rw [hsame] at hunwoken
        have pending := wakes.pending hrequested j seen hwaits hunwoken
        rcases handlerStep_pending hstep pending with hstill | hdone
        · exact hstill
        · rw [hsame] at hdone
          exact absurd hdone (Nat.ne_of_lt (Nat.lt_succ_self _))

theorem wakesPending_keeps :
    Keeps (step config) (fun label (s : State n) => StopsCleanly label s) WakesPending := by
  intro label s next clean wakes hstep
  have lock := lockSound_step clean.sparesOwner wakes.lock hstep
  have cerr := cerrSound_step clean.sparesWriter wakes.cerr hstep
  have hcounted := step_broadcasts hstep
  have hkept := fun pending : BroadcastPending s => step_pending hstep pending
  obtain ⟨_, effect⟩ := step_effect hstep
  cases effect with
  | ticks _ hnext | calls _ _ _ hnext | logs _ _ _ _ hnext =>
      subst hnext
      exact ⟨lock, cerr, wakes.seen, wakes.pending⟩
  | polls i meets _ _ effect houtside =>
      exact wakesPending_polls clean wakes lock cerr effect houtside
  | monitors _ _ effect =>
      refine ⟨lock, cerr, ?_, ?_⟩
      · intro j seen hwaits
        rw [effect.pollers] at hwaits
        exact Nat.le_trans (wakes.seen j seen hwaits) effect.broadcasts
      · intro hrequested j seen hwaits hunwoken
        rw [effect.pollers] at hwaits
        rw [effect.stop] at hrequested
        exact broadcastPending_congr effect.handlers
          (wakes.pending hrequested j seen hwaits (Nat.le_trans hcounted hunwoken))
  | handles thread hhandler effect => exact wakesPending_handles wakes lock cerr hhandler effect
  | signals thread signal _ hnext =>
      subst hnext
      refine ⟨lock, cerr, wakes.seen, ?_⟩
      intro hrequested j seen hwaits hunwoken
      exact (hkept (wakes.pending hrequested j seen hwaits hunwoken)).resolve_right
        (Nat.lt_irrefl _)

/-! ## Runs -/

/-- If no signal interrupts the owner of a lock, and no poller begins to wait
after the broadcast of a stop request, no thread is ever stranded. -/
theorem never_stranded {hosts : List Queryhost} {clock : Nat} {nextIteration : Int}
    {statistics : Statistics} {labels : List (Label n)} {final : State n}
    (clean : Guarded (step config) StopsCleanly labels
      (State.start hosts clock nextIteration statistics))
    (hrun : run (step config) labels (State.start hosts clock nextIteration statistics) =
      some final) : ¬ Stranded config final := by
  have start : WakesPending (State.start hosts clock nextIteration statistics : State n) :=
    wakesPending_start hosts clock nextIteration statistics
  have wakes := wakesPending_keeps.run clean start hrun
  rintro ⟨hrunning, hstop, ⟨i, ⟨seen, hwaits, hunwoken⟩, hsilent⟩ |
    ⟨thread, ⟨howner, hwants⟩ | ⟨howner, hwants⟩⟩⟩
  · have pending := wakes.pending hstop i seen hwaits hunwoken
    obtain ⟨later, continues, hmore⟩ :=
      @pending_broadcasts n config final wakes.lock wakes.cerr hrunning pending
    exact absurd (hsilent later continues) (Nat.ne_of_gt hmore)
  · have hcritical := (wakes.lock.owner thread).mp howner
    rw [critical_of_wantsLock hwants] at hcritical
    exact Nat.lt_irrefl 0 hcritical
  · have hwriting := (wakes.cerr.owner thread).mp howner
    rw [writing_of_wantsCerrLock hwants] at hwriting
    exact Nat.lt_irrefl 0 hwriting

/-- The simplest way to meet the condition: all pollers that wait began to wait
before the stop. -/
def WaitsBeforeStop : Label n → State n → Prop
  | .signal thread _, s => s.globalLock ≠ some thread ∧ s.cerrLock ≠ some thread
  | .poller i _, s => (s.pollers i).pc = .condWait → s.threadStopRequested = false
  | _, _ => True

instance : ∀ (label : Label n) (s : State n), Decidable (WaitsBeforeStop label s)
  | .signal thread _, s =>
      inferInstanceAs (Decidable (s.globalLock ≠ some thread ∧ s.cerrLock ≠ some thread))
  | .poller i _, s =>
      inferInstanceAs (Decidable ((s.pollers i).pc = .condWait → s.threadStopRequested = false))
  | .tick _, _ | .monitor, _ | .callsCllog _, _ | .cllog _, _ | .handler _, _ =>
      .isTrue trivial

theorem WaitsBeforeStop.stopsCleanly (label : Label n) (s : State n)
    (before : WaitsBeforeStop label s) : StopsCleanly label s := by
  cases label with
  | poller i meets =>
      intro hpc hrequested
      rw [before hpc] at hrequested
      cases hrequested
  | signal thread signal => exact before
  | _ => trivial

/-- A thread handles a signal, if the locks are free. -/
def handles (thread : ThreadId n) (signal : Signal) (steps : Nat) : List (Label n) :=
  .signal thread signal :: List.replicate steps (.handler thread)

/-- The poller waits, the handler wakes it, and both threads return. -/
def cleanStop : List (Label 1) :=
  pollerSteps onlyPoller 5 ++ handles (.other 0) .term 7 ++ pollerSteps onlyPoller 4 ++
    [.tick 250] ++ monitorSteps 2

theorem never_stranded_cleanStop :
    ∃ final, run (step defaultRtgconf) cleanStop
        (State.start oneCounter 299650 0 Statistics.initial) = some final ∧
      (final.pollers onlyPoller).pc = .returned ∧ final.monitor.pc = .returned ∧
      ¬ Stranded defaultRtgconf final :=
  ⟨_, rfl, rfl, rfl, never_stranded
    ((by decide : Guarded (step defaultRtgconf) WaitsBeforeStop cleanStop
      (State.start oneCounter 299650 0 Statistics.initial)).imp WaitsBeforeStop.stopsCleanly) rfl⟩

/-- When the monitor has returned and no handler runs, nobody broadcasts. -/
theorem noBroadcastAhead_of_returned (hmonitor : s.monitor.pc = .returned)
    (hhandlers : ∀ thread, s.handlers thread = []) : NoBroadcastAhead config s := by
  have keeps : Keeps (step config) (fun label (_ : State n) => label.isSignal = false)
      (fun later => later.monitor.pc = .returned ∧ (∀ thread, later.handlers thread = []) ∧
        later.broadcasts = s.broadcasts) := by
    rintro label later next hquiet ⟨hreturned, hidle, hsame⟩ hstep
    obtain ⟨_, effect⟩ := step_effect hstep
    cases effect with
    | ticks _ hnext | calls _ _ _ hnext | logs _ _ _ _ hnext =>
        subst hnext
        exact ⟨hreturned, hidle, hsame⟩
    | polls i meets _ _ _ houtside =>
        have hmonitor' : next.monitor = later.monitor := congrArg Outside.monitor houtside
        have hhandlers' : next.handlers = later.handlers := congrArg Outside.handlers houtside
        refine ⟨hmonitor' ▸ hreturned, hhandlers' ▸ hidle, ?_⟩
        exact (congrArg Outside.broadcasts houtside).trans hsame
    | monitors _ hmonitorStep _ =>
        rw [monitorStep, hreturned] at hmonitorStep
        cases hmonitorStep
    | handles thread hhandler _ =>
        unfold handlerStep at hhandler
        rw [hidle thread] at hhandler
        cases hhandler
    | signals thread signal _ _ => cases hquiet
  intro final continues
  exact (continues.property keeps ⟨hmonitor, hhandlers, rfl⟩).2.2

/-- A thread that no signal reaches runs no handler. -/
theorem unsignalled_keeps (thread : ThreadId n) :
    Keeps (step config) (fun label (_ : State n) => ∀ signal, label ≠ .signal thread signal)
      (fun s => s.handlers thread = []) := by
  intro label s next hspared hidle hstep
  obtain ⟨_, effect⟩ := step_effect hstep
  cases effect with
  | ticks _ hnext | calls _ _ _ hnext | logs _ _ _ _ hnext =>
      subst hnext
      exact hidle
  | polls i meets _ _ _ houtside =>
      exact (congrFun (congrArg Outside.handlers houtside) thread).trans hidle
  | monitors _ _ effect => exact (congrFun effect.handlers thread).trans hidle
  | handles other hhandler _ =>
      have hother : ∀ {frame frames}, s.handlers other = frame :: frames → thread ≠ other := by
        rintro frame frames hframes rfl
        rw [hidle] at hframes
        cases hframes
      cases handlerStep_frameStep hhandler with
      | advances _ _ _ hbefore hafter _ _ _ =>
          rw [hafter, Function.update_of_ne (hother hbefore)]
          exact hidle
      | broadcasts _ hbefore hafter _ _ =>
          rw [hafter, Function.update_of_ne (hother hbefore)]
          exact hidle
      | returns _ hbefore hafter _ _ _ =>
          rw [hafter, Function.update_of_ne (hother hbefore)]
          exact hidle
  | signals other signal _ hnext =>
      subst hnext
      have hother : thread ≠ other := by
        rintro rfl
        exact hspared signal rfl
      exact (Function.update_of_ne hother _ _).trans hidle

/-- The poller finds no stop request, then the handler runs from its beginning
to its end, and then the poller begins to wait. -/
def lateWait : List (Label 1) :=
  pollerSteps onlyPoller 1 ++ handles (.other 0) .term 7 ++ pollerSteps onlyPoller 4 ++
    [.tick 250] ++ monitorSteps 2

/-- The wakeup is lost: the poller sleeps for good and the program never ends. -/
theorem lateWait_strands :
    ∃ final, run (step defaultRtgconf) lateWait
        (State.start oneCounter 299650 0 Statistics.initial) = some final ∧
      WaitsForever defaultRtgconf final onlyPoller ∧ Stranded defaultRtgconf final := by
  have hrun : ∃ final, run (step defaultRtgconf) lateWait
        (State.start oneCounter 299650 0 Statistics.initial) = some final ∧
      final.fault = none ∧ final.threadStopRequested = true ∧
      ((final.pollers onlyPoller).pc = .waiting 1 ∧ final.broadcasts = 1) ∧
      final.monitor.pc = .returned ∧ final.handlers (.other 0) = [] :=
    ⟨_, rfl, rfl, rfl, ⟨rfl, rfl⟩, rfl, rfl⟩
  obtain ⟨final, hrun, hrunning, hstop, ⟨hpc, hbroadcasts⟩, hmonitor, hhandled⟩ := hrun
  have hhandlers : ∀ thread, final.handlers thread = [] := by
    intro thread
    by_cases hthread : thread = .other 0
    · rw [hthread, hhandled]
    · refine (unsignalled_keeps thread).run (guarded_of_labels ?_ _) rfl hrun
      rintro label hlabel _ signal rfl
      simp [lateWait, pollerSteps, monitorSteps, handles] at hlabel
      exact hthread hlabel.1
  have waits : WaitsForever defaultRtgconf final onlyPoller :=
    ⟨⟨1, hpc, hbroadcasts.le⟩, noBroadcastAhead_of_returned hmonitor hhandlers⟩
  exact ⟨final, hrun, waits, hrunning, hstop, Or.inl ⟨onlyPoller, waits⟩⟩

/-- A signal arrives on a poller that owns the lock. -/
def interruptedOwner : List (Label 1) :=
  pollerSteps onlyPoller 2 ++ handles (.poller onlyPoller) .hup 3

/-- The handler waits for the lock of the poller that it interrupts. -/
theorem interruptedOwner_strands :
    ∃ final, run (step defaultRtgconf) interruptedOwner
        (State.start oneCounter 299650 0 Statistics.initial) = some final ∧
      SelfDeadlocked final (.poller onlyPoller) ∧ Stranded defaultRtgconf final :=
  ⟨_, rfl, Or.inl ⟨rfl, rfl⟩, rfl, rfl, Or.inr ⟨.poller onlyPoller, Or.inl ⟨rfl, rfl⟩⟩⟩

/-- After a stop request, a signal arrives on a thread that is writing to the log. -/
def interruptedWriter : List (Label 1) :=
  handles (.other 0) .term 7 ++ [.callsCllog (.other 1), .cllog (.other 1)] ++
    handles (.other 1) .hup 0

/-- The handler, which writes to the log first, waits for the thread that it
interrupts. -/
theorem interruptedWriter_strands :
    ∃ final, run (step defaultRtgconf) interruptedWriter
        (State.start oneCounter 299650 0 Statistics.initial) = some final ∧
      SelfDeadlocked final (.other 1) ∧ Stranded defaultRtgconf final :=
  ⟨_, rfl, Or.inr ⟨rfl, rfl⟩, rfl, rfl, Or.inr ⟨.other 1, Or.inr ⟨rfl, rfl⟩⟩⟩

end ClusteredPoller.Threads
