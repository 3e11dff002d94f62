import ClusteredPoller.Library.Observation
import ClusteredPoller.Library.Table
import ClusteredPoller.Process.StopRequests
import ClusteredPoller.Targets.CacheKeys
import ClusteredPoller.Threads.HostExclusion

/-!
# Caches across reloads

The threads come and go with each `SIGHUP`, and the two files may change in
between.  The caches of a row are nevertheless those of the last sample of its
host name and OID, as long as the targets that are read have distinct ones and no
two pollers are at the same host.  With two of them at a row their reads and
stores would mix; the model makes those of one poller in one step.
-/

namespace ClusteredPoller.Process

open Library Library.Table Library.Transition Poller Targets Threads

abbrev CacheEvent := Table.Event CacheKey Cache

/-! ## What happens to the caches -/

section Threads

variable {n m : Nat}

/-- The sample of a row that is queried without a fault. -/
def stores (config : Rtgconf) (i : Fin n) (meets : Meeting) (s : Threads.State n) :
    List CacheEvent :=
  match (s.pollers i).pc with
  | .processing host _ (.queryRow number progress) =>
      match s.hosts[host]?, s.row host number, s.queryRow config meets host number progress,
        meets.reply with
      | some target, some row, .ok _, some counter => [.set (keyOf target row) ⟨s.time, counter⟩]
      | _, _, _, _ => []
  | _ => []

def runningEvents (config : Rtgconf) (label : RunThreads.Label n m)
    (program : RunThreads.Program n m) : List CacheEvent :=
  match label with
  | .threads (.poller i meets) => stores config i meets program.threads
  | _ => []

end Threads

/-- Samples are stored, and newly read targets take the place of the old. -/
def cacheEvents : Label → State → List CacheEvent
  | .main _, .alone a =>
      match a.pc with
      | .copyCache _ targets => [.replaced ((cacheTable targets.hosts).map Prod.fst)]
      | _ => []
  | @Label.threads n m label, .running config _ _ program =>
      if hsize : n = config.threads.toNat ∧ m = config.numDbthreads.toNat then
        runningEvents config (Label.resize hsize label) program
      else []
  | _, _ => []

/-- The targets that polling goes on with. -/
def Alone.hosts (a : Alone) : List Queryhost :=
  match a.pc with
  | .runThreads _ targets | .createThreads _ targets => targets.hosts
  | _ => a.oldTargets.elim [] Rtgtargets.hosts

def State.hosts : State → Option (List Queryhost)
  | .alone a => some a.hosts
  | .running _ _ _ program => some program.threads.hosts
  | .ended _ _ => none

/-- Targets that are read have distinct names and OIDs. -/
def ReadsDistinct (settings : Settings) : Label → State → Prop
  | .main input, .alone a =>
      match a.pc with
      | .readTargets config =>
          match rtgtargetsParse input.unspecified input.file
            (config.patch settings.toOptions) with
          | .ok targets => DistinctTargets targets
          | .error _ => True
      | _ => True
  | _, _ => True

instance (settings : Settings) : ∀ label state, Decidable (ReadsDistinct settings label state)
  | .main input, .alone a => by
      unfold ReadsDistinct
      dsimp only
      split
      · split
        · infer_instance
        · infer_instance
      · infer_instance
  | .tick _, _ | .signal _, _ | .callsCllog, _ | .cllog, _ | .handler, _ | .threads _, _ =>
      .isTrue trivial
  | .main _, .running _ _ _ _ | .main _, .ended _ _ => .isTrue trivial

/-- When the monitor resets `next_host`, no poller is at a host. -/
def RunningResetsIdle {n m : Nat} : RunThreads.Label n m → RunThreads.Program n m → Prop
  | .threads label, program => Threads.ResetsIdle label program.threads
  | _, _ => True

instance {n m : Nat} : ∀ (label : RunThreads.Label n m) (program : RunThreads.Program n m),
    Decidable (RunningResetsIdle label program)
  | .threads label, program =>
      inferInstanceAs (Decidable (Threads.ResetsIdle label program.threads))
  | .queries _ _, _ | .database _ _, _ | .main, _ => .isTrue trivial

def ResetsIdle : Label → State → Prop
  | @Label.threads n m label, .running config _ _ program =>
      ∀ hsize : n = config.threads.toNat ∧ m = config.numDbthreads.toNat,
        RunningResetsIdle (Label.resize hsize label) program
  | _, _ => True

instance : ∀ label state, Decidable (ResetsIdle label state)
  | @Label.threads n m label, .running config _ _ program =>
      inferInstanceAs (Decidable (∀ hsize : n = config.threads.toNat ∧
        m = config.numDbthreads.toNat, RunningResetsIdle (Label.resize hsize label) program))
  | .threads _, .alone _ | .threads _, .ended _ _ => .isTrue trivial
  | .tick _, _ | .signal _, _ | .callsCllog, _ | .cllog, _ | .handler, _ | .main _, _ =>
      .isTrue trivial

/-! ## The threads -/

section Threads

variable {n m : Nat} {config : Rtgconf}

/-- The caches are those of the events. -/
structure Remembers (hosts : List Queryhost) (events : List CacheEvent) : Prop where
  keyed : Keyed hosts
  tabulates : Tabulates noCache (cacheTable hosts) (remembered noCache events)

theorem row_eq_some {s : Threads.State n} {host number : Nat} {row : Queryrow}
    (hrow : s.row host number = some row) :
    ∃ target, s.hosts[host]? = some target ∧ target.rows[number]? = some row :=
  Option.bind_eq_some_iff.mp hrow

theorem Remembers.quiet {hosts others : List Queryhost} {events : List CacheEvent}
    (remembers : Remembers hosts events) (hhosts : others = hosts) :
    Remembers others (events ++ []) := by
  rw [hhosts, List.append_nil]
  exact remembers

theorem stores_querying {i : Fin n} {s : Threads.State n} {host round number : Nat}
    {progress : Progress}
    (hpc : (s.pollers i).pc = .processing host round (.queryRow number progress))
    (meets : Meeting) :
    stores config i meets s =
      match s.hosts[host]?, s.row host number, s.queryRow config meets host number progress,
        meets.reply with
      | some target, some row, .ok _, some counter => [.set (keyOf target row) ⟨s.time, counter⟩]
      | _, _, _, _ => [] := by
  rw [stores, hpc]

/-- What a step of the loop over the rows does to the caches is what it stores. -/
theorem queryRow_remembers {i : Fin n} {meets : Meeting} {s : Threads.State n}
    {host round number : Nat} {progress : Progress} {queried : Threads.State n × HostStage}
    {events : List CacheEvent} (remembers : Remembers s.hosts events)
    (hpc : (s.pollers i).pc = .processing host round (.queryRow number progress))
    (hquery : s.queryRow config meets host number progress = .ok queried) :
    Remembers queried.1.hosts (events ++ stores config i meets s) := by
  have hstores := @stores_querying n config i s host round number progress hpc meets
  rcases queryRow_ok hquery with ⟨hnone, rfl⟩ | ⟨row, row', progress', hrow, hpoll, hnext, -⟩
  · have hquiet : stores config i meets s = [] := by
      rw [hstores, hnone]
      cases s.hosts[host]? <;> rfl
    rw [hquiet, List.append_nil]
    exact remembers
  · obtain ⟨target, htarget, hnumber⟩ := row_eq_some hrow
    obtain ⟨value, -, hrow', -, -⟩ := pollRow_cases hpoll
    have hhosts : queried.1.hosts = replaceRow s.hosts host number row' := by
      rw [hnext]
      rfl
    have hoid : row'.oid = row.oid := by
      rw [hrow']
      cases meets.reply <;> rfl
    obtain ⟨hshapes, before, after, htable, hreplaced⟩ := replaceRow_table htarget hnumber hoid
    have hnodup := remembers.keyed.keys_nodup
    have htabulates := remembers.tabulates
    rw [htable] at hnodup htabulates
    rw [hhosts, hstores, htarget, hrow, hquery]
    refine ⟨remembers.keyed.of_shapes hshapes, ?_⟩
    rw [hreplaced]
    cases hreply : meets.reply with
    | none =>
        rw [hreply] at hrow'
        rw [hrow', List.append_nil]
        exact htabulates
    | some counter =>
        have hcache : cacheOf row' = ⟨s.time, counter⟩ := by
          rw [hrow', hreply]
          rfl
        rw [hcache, remembered_set]
        exact htabulates.set hnodup

/-- At a row in the loop of `get_clinserts`. -/
def Querying (pc : PollerPc) : Prop :=
  ∃ host round number progress, pc = .processing host round (.queryRow number progress)

theorem stores_eq_nil {i : Fin n} {meets : Meeting} {s : Threads.State n}
    (hother : ¬ Querying (s.pollers i).pc) : stores config i meets s = [] := by
  unfold stores
  split
  · rename_i host round number progress hpc
    exact absurd ⟨host, round, number, progress, hpc⟩ hother
  · rfl

theorem pollerEffect_hosts {i : Fin n} {s t : Threads.State n} (effect : PollerEffect i s t)
    (hother : ¬ Querying (s.pollers i).pc) : t.hosts = s.hosts := by
  cases effect with
  | queries _ host round number progress _ _ _ _ hpc =>
      exact absurd ⟨host, round, number, progress, hpc⟩ hother
  | moves _ _ hshared | leaves _ _ _ hshared | enters _ _ hshared | takes _ _ _ hshared
  | leavesLoop _ _ _ _ hshared | finishes _ _ _ _ hshared | endsRound _ hshared
  | returns _ _ _ hshared | fails _ hshared =>
      exact congrArg Shared.hosts hshared

theorem pollerStep_remembers {i : Fin n} {meets : Meeting} {s t : Threads.State n}
    {events : List CacheEvent} (remembers : Remembers s.hosts events)
    (hstep : pollerStep config i meets s = some t) :
    Remembers t.hosts (events ++ stores config i meets s) := by
  by_cases hquerying : Querying (s.pollers i).pc
  · obtain ⟨host, round, number, progress, hpc⟩ := hquerying
    have hmade : hostStep config i meets host round s (.queryRow number progress) = some t := by
      rw [pollerStep, hpc] at hstep
      exact hstep
    have hnext := Option.some.inj hmade
    cases hquery : s.queryRow config meets host number progress with
    | ok queried =>
        rw [hquery] at hnext
        rw [← hnext]
        exact queryRow_remembers remembers hpc hquery
    | error fault =>
        rw [hquery] at hnext
        have hquiet : stores config i meets s = [] := by
          rw [stores_querying hpc, hquery]
          cases s.hosts[host]? <;> cases s.row host number <;> rfl
        rw [← hnext, hquiet, List.append_nil]
        exact remembers
  · rw [stores_eq_nil hquerying, List.append_nil,
      pollerEffect_hosts (pollerStep_effect hstep).1 hquerying]
    exact remembers

theorem monitorEffect_hosts {s t : Threads.State n} (effect : MonitorEffect s t) :
    t.hosts = s.hosts := by
  cases effect with
  | resets _ hshared | ends _ _ _ hshared | moves hshared => exact congrArg Shared.hosts hshared

theorem runningStep_remembers {label : RunThreads.Label n m} {program next : RunThreads.Program n m}
    {events : List CacheEvent} (remembers : Remembers program.threads.hosts events)
    (hstep : RunThreads.step config label program = some next) :
    Remembers next.threads.hosts (events ++ runningEvents config label program) := by
  cases RunThreads.step_threads hstep with
  | steps label hthreads =>
      obtain ⟨-, effect⟩ := Threads.step_effect hthreads
      cases effect with
      | polls i meets _ hpoller => exact pollerStep_remembers remembers hpoller
      | ticks _ hnext | calls _ _ _ hnext | logs _ _ _ _ hnext | signals _ _ _ hnext =>
          exact remembers.quiet (by rw [hnext])
      | monitors _ _ effect => exact remembers.quiet (monitorEffect_hosts effect.effect)
      | handles thread _ effect => exact remembers.quiet (congrArg Shared.hosts effect.shared)
  | queued i _ _ _ _ _ _ hthreads => exact remembers.quiet (by rw [hthreads]; rfl)
  | queues _ _ hthreads | database _ _ hthreads | main hthreads =>
      exact remembers.quiet (congrArg Threads.State.hosts hthreads)

/-- No two pollers come to be at the same host. -/
theorem runningStep_exclusive {label : RunThreads.Label n m}
    {program next : RunThreads.Program n m} (exclusive : InWorkExclusive program.threads)
    (hidle : RunningResetsIdle label program)
    (hstep : RunThreads.step config label program = some next) :
    InWorkExclusive next.threads := by
  cases RunThreads.step_threads hstep with
  | steps label hthreads => exact inWorkExclusive_keeps label _ _ hidle exclusive hthreads
  | queued i _ host round inserts totals hpc hthreads =>
      have hinWork := @inWork_update n program.threads
        (program.threads.goto i (.processing host round (.statsLock totals))) i _ rfl
        (Or.inr (by rw [hpc]; rfl))
      rw [hthreads]
      exact ⟨exclusive.inOrder,
        fun j host processes => exclusive.below j host (processes_of_kept hinWork processes),
        exclusive_of_kept hinWork exclusive.exclusive⟩
  | queues _ _ hthreads | database _ _ hthreads | main hthreads =>
      rw [hthreads]
      exact exclusive

end Threads

/-! ## The process -/

/-- Targets that wait for the caches of the old ones. -/
def MainPc.Read : MainPc → Prop
  | .copyCache _ targets => Keyed targets.hosts ∧ Uncached targets.hosts
  | _ => True

/-- The caches are those of the events, also of targets that have just been
read. -/
def Remembering (o : Observed State CacheEvent) : Prop :=
  match o.state with
  | .alone a => Remembers a.hosts o.events ∧ a.pc.Read
  | .running _ _ _ program => Remembers program.threads.hosts o.events
  | .ended _ _ => True

theorem keyed_nil : Keyed [] := ⟨List.nodup_nil, nofun, nofun⟩

section Steps

variable {settings : Settings}

/-- The new targets take the caches over. -/
theorem joined_remembers {dest src : List Queryhost} {events : List CacheEvent}
    (hdest : Keyed dest) (huncached : Uncached dest) (remembers : Remembers src events) :
    Remembers (joinHosts dest src)
      (events ++ [.replaced ((cacheTable dest).map Prod.fst)]) := by
  have hshapes := joinHosts_shapes dest src
  have hkeyed := hdest.of_shapes hshapes
  refine ⟨hkeyed, ?_⟩
  have hkeys : (cacheTable dest).map Prod.fst = (cacheTable (joinHosts dest src)).map Prod.fst := by
    rw [cacheTable_keys, cacheTable_keys, hshapes]
  rw [remembered_replaced, hkeys]
  exact remembers.tabulates.replace fun entry hentry =>
    joinHosts_table hdest remembers.keyed huncached hentry

theorem mainStep_remembering {input : Input} {a : Alone} {events : List CacheEvent}
    (remembers : Remembers a.hosts events) (hread : a.pc.Read)
    (hdistinct : ReadsDistinct settings (.main input) (.alone a)) :
    Remembering ⟨mainStep settings input a, events ++ cacheEvents (.main input) (.alone a)⟩ := by
  have move := mainStep_move settings input a
  generalize mainStep settings input a = next at move ⊢
  rw [cacheEvents]
  rw [Alone.hosts] at remembers
  dsimp only [ReadsDistinct] at hdistinct
  cases move with
  | stops | givesUp => trivial
  | goesOn hpc | readsConf config hpc | clears config targets hpc =>
      rw [hpc] at remembers ⊢
      exact ⟨remembers.quiet rfl, trivial⟩
  | readsTargets config targets hpc hparse =>
      rw [hpc] at remembers hdistinct ⊢
      dsimp only at hdistinct
      rw [hparse] at hdistinct
      exact ⟨remembers.quiet rfl, rtgtargetsParse_keyed hparse hdistinct,
        rtgtargetsParse_uncached hparse⟩
  | startsAfresh config targets hpc hold =>
      rw [hpc] at remembers hread ⊢
      rw [hold] at remembers
      exact ⟨joined_remembers hread.1 hread.2 remembers, trivial⟩
  | copiesCache config targets old copied hpc hold hcopy =>
      rw [hpc] at remembers hread ⊢
      rw [hold] at remembers
      rw [rtgtargetsCopyCache_ok hcopy]
      exact ⟨joined_remembers hread.1 hread.2 remembers, trivial⟩
  | begins config targets hpc =>
      rw [hpc] at remembers ⊢
      exact remembers.quiet rfl

theorem remembering_keeps (settings : Settings) :
    Keeps (Observed.step (step settings) cacheEvents)
      (fun label o => ReadsDistinct settings label o.state) Remembering := by
  intro label o next hdistinct holds hstep
  obtain ⟨hmake, hevents⟩ := Observed.step_eq_some.mp hstep
  obtain ⟨state, events⟩ := o
  obtain ⟨nextState, nextEvents⟩ := next
  dsimp only at hmake hevents hdistinct
  subst hevents
  cases step_move hmake with
  | ticks | signals | callsCllog | logs =>
      obtain ⟨remembers, hread⟩ := holds
      exact ⟨remembers.quiet rfl, hread⟩
  | handles a b hhandler =>
      obtain ⟨remembers, hread⟩ := holds
      obtain ⟨hpc, hold⟩ := Alone.handlerStep_main hhandler
      refine ⟨remembers.quiet ?_, ?_⟩
      · rw [Alone.hosts, Alone.hosts, hpc, hold]
      · rw [hpc]
        exact hread
  | main input a => exact mainStep_remembering holds.1 holds.2 hdistinct
  | creates => exact Remembers.quiet holds rfl
  | leaves => exact ⟨Remembers.quiet holds rfl, trivial⟩
  | threads config targets created program after label hrunning =>
      have hshows : cacheEvents (.threads label) (.running config targets created program) =
          runningEvents config label program := dif_pos ⟨rfl, rfl⟩
      rw [hshows]
      exact runningStep_remembers holds hrunning

/-- The hosts in work, while threads run. -/
def State.Exclusive : State → Prop
  | .running _ _ _ program => InWorkExclusive program.threads
  | _ => True

theorem exclusive_keeps (settings : Settings) :
    Keeps (step settings) ResetsIdle State.Exclusive := by
  intro label state next hidle exclusive hstep
  cases step_move hstep with
  | ticks | signals | callsCllog | logs | handles | leaves => trivial
  | creates => exact exclusive
  | main input a =>
      have move := mainStep_move settings input a
      generalize mainStep settings input a = next at move ⊢
      cases move with
      | stops | givesUp | goesOn | readsConf | readsTargets | startsAfresh | copiesCache
      | clears => trivial
      | begins config targets =>
          have start := @inWorkExclusive_start (config.patch settings.toOptions).threads.toNat
            targets.hosts a.clock a.nextIteration a.statistics
          exact ⟨start.inOrder, start.below, start.exclusive⟩
  | threads config targets created program after label hrunning =>
      exact runningStep_exclusive exclusive (hidle ⟨rfl, rfl⟩) hrunning

end Steps

/-- In every run of the process in which the targets that are read have distinct
host names and OIDs and every reset finds no poller at a host, over any number of
reloads, no two pollers are ever at the same host, the caches of each row are the
last sample that was stored for its host and OID since these came into the file,
and a row without one has no caches. -/
theorem caches_are_last_samples (settings : Settings) (clock : Nat) {labels : List Label}
    {o : Observed State CacheEvent}
    (hrun : run (Observed.step (step settings) cacheEvents) labels
      (Observed.begin (.alone (Alone.start clock))) = some o)
    (distinct : Guarded (step settings) (ReadsDistinct settings) labels
      (.alone (Alone.start clock)))
    (resetsIdle : Guarded (step settings) ResetsIdle labels (.alone (Alone.start clock))) :
    (∀ config targets created program, o.state = .running config targets created program →
      HostsExclusive program.threads) ∧
    ∀ hosts, o.state.hosts = some hosts → ∀ host ∈ hosts, ∀ row ∈ host.rows,
      cacheOf row = remembered noCache o.events (keyOf host row) := by
  constructor
  · intro config targets created program hstate
    have hexclusive := (exclusive_keeps settings).run resetsIdle
      (show (State.alone (Alone.start clock)).Exclusive from trivial) (Observed.run_state hrun)
    rw [hstate] at hexclusive
    exact ⟨hexclusive.exclusive, hexclusive.inOrder.nodup⟩
  · have hstart : Remembering (Observed.begin (.alone (Alone.start clock))) :=
      ⟨⟨keyed_nil, tabulates_nil⟩, trivial⟩
    have hholds := (remembering_keeps settings).run (Observed.guarded_iff.mpr distinct) hstart hrun
    have hremembers : ∀ hosts, o.state.hosts = some hosts → Remembers hosts o.events := by
      intro hosts hhosts
      obtain ⟨state, events⟩ := o
      cases state with
      | alone a =>
          cases hhosts
          exact hholds.1
      | running config targets created program =>
          cases hhosts
          exact hholds
      | ended ending a => cases hhosts
    intro hosts hhosts host hhost row hrow
    exact (hremembers hosts hhosts).tabulates.entries _
      (mem_cacheTable.mpr ⟨host, hhost, row, hrow, rfl⟩)

/-! ## A sample before a reload -/

/-- Eight pollers and a database thread, as there are without other settings. -/
def pollerStepOf (i : Fin 8) (meets : Meeting) : Label :=
  @Label.threads 8 1 (.threads (.poller i meets))

/-- The main thread reads `singleFile`. -/
def readsFiles : List Label :=
  [reads none, reads smallConf, reads singleFile, reads none]

/-- The first poller wakes up and queries the row of the only host. -/
def queriesOnce : List Label :=
  List.replicate 5 (pollerStepOf 0 {}) ++ [pollerStepOf 0 { spurious := true }] ++
    List.replicate 9 (pollerStepOf 0 {}) ++ [pollerStepOf 0 { reply := some 700 }] ++
    List.replicate 4 (pollerStepOf 0 {}) ++ List.replicate 4 (@Label.threads 8 1 (.queries 0 0))

/-- The main thread clears the flag and creates the ten threads. -/
def createsAll : List Label := List.replicate 12 (reads none)

/-- A `SIGHUP` arrives, all threads return and are joined. -/
def hangsUp : List Label :=
  @Label.threads 8 1 (.threads (.signal (.other 0) .hup)) ::
    List.replicate 6 (@Label.threads 8 1 (.threads (.handler (.other 0)))) ++
    List.replicate 6 (pollerStepOf 0 {}) ++
    (List.finRange 7).map (fun i => pollerStepOf i.succ {}) ++
    List.replicate 2 (@Label.threads 8 1 (.threads .monitor)) ++
    List.replicate 2 (@Label.threads 8 1 (.database (Fin.last 0) {})) ++
    List.replicate 3 (@Label.threads 8 1 .main)

def reloadLabels : List Label :=
  [.tick 1000] ++ readsFiles ++ createsAll ++ queriesOnce ++ hangsUp ++ [reads none] ++ readsFiles

def singleKeys : List CacheKey := (cacheTable singleTargets.hosts).map Prod.fst

theorem caches_are_last_samples_reload :
    ∃ o host row, run (Observed.step (step defaultSettings) cacheEvents) reloadLabels
        (Observed.begin (.alone (Alone.start 0))) = some o ∧
      o.state.hosts = some [host] ∧ host.rows = [row] ∧ cacheOf row = ⟨1, 700⟩ := by
  have hevents : (run (Observed.step (step defaultSettings) cacheEvents) reloadLabels
      (Observed.begin (.alone (Alone.start 0)))).map Observed.events =
        some (.replaced singleKeys :: singleKeys.map (.set · ⟨1, 700⟩) ++
          [.replaced singleKeys]) := by
    decide +kernel
  have hhosts : (run (Observed.step (step defaultSettings) cacheEvents) reloadLabels
      (Observed.begin (.alone (Alone.start 0)))).bind (fun o => o.state.hosts) =
        some (singleTargets.withCaches fun _ _ => ⟨1, 700⟩).hosts := by
    decide +kernel
  obtain ⟨o, hrun, hevents⟩ := Option.map_eq_some_iff.mp hevents
  rw [hrun, Option.bind_some] at hhosts
  refine ⟨o, _, _, hrun, hhosts, rfl, ?_⟩
  have hdistinct : Guarded (step defaultSettings) (ReadsDistinct defaultSettings) reloadLabels
      (.alone (Alone.start 0)) := by
    decide +kernel
  have hidle : Guarded (step defaultSettings) ResetsIdle reloadLabels
      (.alone (Alone.start 0)) := by
    decide +kernel
  have hlast := (caches_are_last_samples defaultSettings 0 hrun hdistinct hidle).2 _ hhosts _
    (List.mem_singleton_self _) _ (List.mem_singleton_self _)
  rw [hlast, hevents]
  decide +kernel

end ClusteredPoller.Process
