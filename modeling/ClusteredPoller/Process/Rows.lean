import ClusteredPoller.Process.Caches
import ClusteredPoller.RunThreads.Rows

/-!
# The rows of all samples

What happens to the rows over the whole life of the process, with all its
reloads.  When `run_threads` returns, the rows in the inserts that found no room
in the queue and those in the inserts that are still in it are lost.
-/

namespace ClusteredPoller.Process

open Database Library Library.Join Library.Transition Poller Targets Threads

inductive RowEvent where
  /-- `get_clinserts` stores a value, which becomes these rows. -/
  | sampled (entries : Multiset Entry)
  /-- A query goes to MySQL or to the log. -/
  | sent (query : CString) (succeeded : Bool)
  /-- There was no room in the queue. -/
  | dropped (entries : Multiset Entry)
  /-- The queue is freed with these rows. -/
  | freed (entries : Multiset Entry)

namespace RowEvent

def sampledRows : RowEvent → Multiset Entry
  | .sampled entries => entries
  | _ => 0

/-- The rows of the queries with this result. -/
def sentRows (succeeded : Bool) : RowEvent → Multiset Entry
  | .sent query made => if made = succeeded then entriesIn query else 0
  | _ => 0

def droppedRows : RowEvent → Multiset Entry
  | .dropped entries => entries
  | _ => 0

def freedRows : RowEvent → Multiset Entry
  | .freed entries => entries
  | _ => 0

end RowEvent

def total (rows : RowEvent → Multiset Entry) (events : List RowEvent) : Multiset Entry :=
  (events.map rows).sum

section Threads

variable {n m : Nat}

def rowEvent (config : Rtgconf) : RunThreads.Flow → RowEvent
  | .stored sample => .sampled (entriesOf config {sample})
  | .sent query succeeded => .sent query succeeded

def runningRows (config : Rtgconf) (label : RunThreads.Label n m)
    (program : RunThreads.Program n m) : List RowEvent :=
  (RunThreads.flows label program).map (rowEvent config)

end Threads

def rowEvents : Label → State → List RowEvent
  | .main _, .running config _ created program =>
      if created ≤ config.threads.toNat + config.numDbthreads.toNat then []
      else
        [.dropped (entriesOf config (program.samplesOf .refused)),
          .freed (entriesOf config (program.samplesOf .queue))]
  | @Label.threads n m label, .running config _ _ program =>
      if hsize : n = config.threads.toNat ∧ m = config.numDbthreads.toNat then
        runningRows config (Label.resize hsize label) program
      else []
  | _, _ => []

/-- The rows of samples that have not been sent and are not lost yet. -/
def State.rowsHeld : State → Multiset Entry
  | .running config _ _ program =>
      entriesOf config (program.samplesOf .refused) + entriesOf config program.waiting
  | _ => 0

/-- The targets that a step reads. -/
def targetsRead (settings : Settings) : Label → State → Option Rtgtargets
  | .main input, .alone a =>
      match a.pc with
      | .readTargets config =>
          (rtgtargetsParse input.unspecified input.file
            (config.patch settings.toOptions)).toOption
      | _ => none
  | _, _ => none

/-- Until the threads have returned, `time_t` can hold the time. -/
def State.TimeFits : State → Prop
  | .running _ _ _ program => program.threads.time < 2 ^ 63
  | _ => True

instance : ∀ state : State, Decidable state.TimeFits
  | .running _ _ _ program => inferInstanceAs (Decidable (program.threads.time < 2 ^ 63))
  | .alone _ | .ended _ _ => .isTrue trivial

/-- The tables that are read have no spaces in their names, and the time is one
that can be printed. -/
def Printing (settings : Settings) (label : Label) (state : State) : Prop :=
  (∀ targets ∈ targetsRead settings label state, Spaceless targets.hosts) ∧ state.TimeFits

instance (settings : Settings) (label : Label) (state : State) :
    Decidable (Printing settings label state) :=
  inferInstanceAs (Decidable (_ ∧ _))

/-- Every row of a sample has been sent or lost. -/
def Settled (events : List RowEvent) : Prop :=
  total RowEvent.sampledRows events =
    total (RowEvent.sentRows true) events + total (RowEvent.sentRows false) events +
      total RowEvent.droppedRows events + total RowEvent.freedRows events

/-- Every query that was sent reads as a statement. -/
def Decodes (events : List RowEvent) : Prop :=
  ∀ query succeeded, .sent query succeeded ∈ events → (decodeStatement query.chars).isSome = true

/-- Targets that polling is going to use. -/
def MainPc.Spaceless : MainPc → Prop
  | .copyCache _ targets | .runThreads _ targets | .createThreads _ targets =>
      Threads.Spaceless targets.hosts
  | _ => True

/-- All that was before the threads were started is settled, and the threads
keep account of what has been since. -/
def Balanced (o : Observed State RowEvent) : Prop :=
  match o.state with
  | .alone a => a.pc.Spaceless ∧ Settled o.events ∧ Decodes o.events
  | .running config _ _ program =>
      ∃ past flows, o.events = past ++ flows.map (rowEvent config) ∧ Settled past ∧
        Decodes past ∧ RunThreads.Recording config ⟨program, flows⟩
  | .ended _ _ => Settled o.events ∧ Decodes o.events

/-! ## Totals -/

section Totals

variable {config : Rtgconf}

theorem total_append (rows : RowEvent → Multiset Entry) (first second : List RowEvent) :
    total rows (first ++ second) = total rows first + total rows second := by
  rw [total, List.map_append, List.sum_append]
  rfl

theorem total_lost (rows : RowEvent → Multiset Entry) (events : List RowEvent)
    (dropped freed : Multiset Entry) :
    total rows (events ++ [.dropped dropped, .freed freed]) =
      total rows events + (rows (.dropped dropped) + rows (.freed freed)) := by
  rw [total_append, total, total, List.map_cons, List.map_singleton, List.sum_cons,
    List.sum_singleton]

theorem total_sampled (flows : List RunThreads.Flow) :
    total RowEvent.sampledRows (flows.map (rowEvent config)) =
      entriesOf config (RunThreads.storedIn flows : Multiset Push) := by
  induction flows with
  | nil => rfl
  | cons flow flows ih =>
      rw [total, List.map_cons, List.map_cons, List.sum_cons]
      cases flow with
      | stored sample =>
          have hstored : ((RunThreads.storedIn (.stored sample :: flows) : List Push) :
              Multiset Push) = {sample} + (RunThreads.storedIn flows : Multiset Push) := rfl
          rw [hstored, entriesOf_add, ← ih]
          rfl
      | sent query succeeded => exact (zero_add _).trans ih

theorem total_sent (flows : List RunThreads.Flow) (succeeded : Bool) :
    total (RowEvent.sentRows succeeded) (flows.map (rowEvent config)) =
      RunThreads.rowsSent succeeded (RunThreads.sentIn flows) := by
  induction flows with
  | nil => rfl
  | cons flow flows ih =>
      rw [total, List.map_cons, List.map_cons, List.sum_cons]
      cases flow with
      | stored sample => exact (zero_add _).trans ih
      | sent query made =>
          have hsent : RunThreads.sentIn (.sent query made :: flows) =
              (query, made) :: RunThreads.sentIn flows := rfl
          rw [hsent, RunThreads.rowsSent, List.filter_cons]
          by_cases hresult : made = succeeded
          · rw [if_pos (decide_eq_true hresult), List.map_cons, List.sum_cons]
            exact congrArg₂ (· + ·) (if_pos hresult) ih
          · rw [if_neg (by simpa using hresult)]
            exact (congrArg₂ (· + ·) (if_neg hresult) ih).trans (zero_add _)

/-- Nothing is given up while the threads run. -/
theorem total_flows {rows : RowEvent → Multiset Entry}
    (hnone : ∀ flow, rows (rowEvent config flow) = 0) (flows : List RunThreads.Flow) :
    total rows (flows.map (rowEvent config)) = 0 := by
  induction flows with
  | nil => rfl
  | cons flow flows ih =>
      rw [total, List.map_cons, List.map_cons, List.sum_cons, hnone, zero_add]
      exact ih

theorem sent_of_rowEvent {flows : List RunThreads.Flow} {query : CString} {succeeded : Bool}
    (hsent : .sent query succeeded ∈ flows.map (rowEvent config)) :
    (query, succeeded) ∈ RunThreads.sentIn flows := by
  obtain ⟨flow, hflow, heq⟩ := List.mem_map.mp hsent
  cases flow with
  | stored sample => cases heq
  | sent query succeeded =>
      cases heq
      exact List.mem_filterMap.mpr ⟨_, hflow, rfl⟩

end Totals

/-! ## While the threads run -/

section Running

variable {n m : Nat} {config : Rtgconf}

/-- The rows of a running program, with those of its past. -/
theorem running_total {program : RunThreads.Program n m} {past : List RowEvent}
    {flows : List RunThreads.Flow} (settled : Settled past)
    (recorded : RunThreads.Recorded config flows program) :
    total RowEvent.sampledRows (past ++ flows.map (rowEvent config)) =
      total (RowEvent.sentRows true) (past ++ flows.map (rowEvent config)) +
        total (RowEvent.sentRows false) (past ++ flows.map (rowEvent config)) +
        total RowEvent.droppedRows (past ++ flows.map (rowEvent config)) +
        total RowEvent.freedRows (past ++ flows.map (rowEvent config)) +
        (entriesOf config (program.samplesOf .refused) + entriesOf config program.waiting) := by
  have hdropped : total RowEvent.droppedRows (flows.map (rowEvent config)) = 0 :=
    total_flows (fun flow => by cases flow <;> rfl) flows
  have hfreed : total RowEvent.freedRows (flows.map (rowEvent config)) = 0 :=
    total_flows (fun flow => by cases flow <;> rfl) flows
  rw [total_append, total_append, total_append, total_append, total_append, settled,
    total_sampled, total_sent, total_sent, recorded.rows, hdropped, hfreed]
  abel

theorem running_decodes {program : RunThreads.Program n m} {past : List RowEvent}
    {flows : List RunThreads.Flow} (decodes : Decodes past)
    (recorded : RunThreads.Recorded config flows program) :
    Decodes (past ++ flows.map (rowEvent config)) := by
  intro query succeeded hsent
  rcases List.mem_append.mp hsent with hpast | hflow
  · exact decodes query succeeded hpast
  · exact recorded.decodes _ (sent_of_rowEvent hflow)

/-- With all threads joined, the samples that wait are those in the queue. -/
theorem waiting_joined {program : RunThreads.Program n m} {flows : List RunThreads.Flow}
    (recording : RunThreads.Recording config ⟨program, flows⟩) (hmain : program.main = .freeQueue) :
    program.waiting = program.samplesOf .queue := by
  obtain ⟨hhands, hothers⟩ := RunThreads.samplesOf_joined recording.pipelined.orderly
    recording.pipelined.handing hmain
  rw [RunThreads.Program.waiting, Finset.sum_eq_zero fun i _ => hhands i, zero_add]
  have hqueue : Handover.Fate.queue ∈
      Finset.univ.filter fun fate : Handover.Fate n m => fate.isEnd = false :=
    Finset.mem_filter.mpr ⟨Finset.mem_univ _, rfl⟩
  refine Finset.sum_eq_single_of_mem _ hqueue fun fate hfate hne => hothers fate ?_
  have hopen := (Finset.mem_filter.mp hfate).2
  cases fate with
  | unhandled | unanswered => simp
  | queue => exact absurd rfl hne
  | refused | executed | failed | omitted => cases hopen

/-- What is not sent when `run_threads` returns is lost. -/
theorem leave_settled {program : RunThreads.Program n m} {past : List RowEvent}
    {flows : List RunThreads.Flow} (settled : Settled past)
    (recording : RunThreads.Recording config ⟨program, flows⟩)
    (hmain : program.main = .freeQueue) :
    Settled (past ++ flows.map (rowEvent config) ++
      [.dropped (entriesOf config (program.samplesOf .refused)),
        .freed (entriesOf config (program.samplesOf .queue))]) := by
  have htotal := running_total settled recording.recorded
  dsimp only at htotal
  rw [waiting_joined recording hmain] at htotal
  simp only [Settled, total_lost, htotal, RowEvent.sampledRows, RowEvent.sentRows,
    RowEvent.droppedRows, RowEvent.freedRows]
  abel

theorem leave_decodes {past : List RowEvent} (decodes : Decodes past)
    (dropped freed : Multiset Entry) : Decodes (past ++ [.dropped dropped, .freed freed]) := by
  intro query succeeded hsent
  rcases List.mem_append.mp hsent with hpast | hnew
  · exact decodes query succeeded hpast
  · simp at hnew

end Running

/-! ## The process -/

/-- The caches that are taken over leave the tables as they are. -/
theorem joinHosts_spaceless {dest : List Queryhost} (spaceless : Spaceless dest)
    (src : List Queryhost) : Spaceless (joinHosts dest src) := by
  have hrow : ∀ row other : Queryrow, (∀ table ∈ row.table, ' ' ∉ table.chars) →
      ∀ table ∈ (copyCache row other).table, ' ' ∉ table.chars := fun _ _ => id
  have hhost : ∀ host other : Queryhost,
      (∀ row ∈ host.rows, ∀ table ∈ row.table, ' ' ∉ table.chars) →
        ∀ row ∈ (joinHost host other).rows, ∀ table ∈ row.table, ' ' ∉ table.chars :=
    fun host other hrows => changeAll_keeps hrow hrows other.rows
  exact changeAll_keeps hhost spaceless src

section Steps

variable {settings : Settings} {events : List RowEvent}

theorem Settled.quiet (settled : Settled events) : Settled (events ++ []) := by
  rw [List.append_nil]
  exact settled

theorem Decodes.quiet (decodes : Decodes events) : Decodes (events ++ []) := by
  rw [List.append_nil]
  exact decodes

theorem mainStep_balanced {input : Input} {a : Alone} (spaceless : a.pc.Spaceless)
    (settled : Settled events) (decodes : Decodes events)
    (hread : ∀ targets ∈ targetsRead settings (.main input) (.alone a),
      Spaceless targets.hosts) :
    Balanced ⟨mainStep settings input a, events ++ []⟩ := by
  have hsettled := settled.quiet
  have hdecodes := decodes.quiet
  have move := mainStep_move settings input a
  generalize mainStep settings input a = next at move ⊢
  rw [targetsRead] at hread
  cases move with
  | stops | givesUp => exact ⟨hsettled, hdecodes⟩
  | goesOn | readsConf => exact ⟨trivial, hsettled, hdecodes⟩
  | readsTargets config targets hpc hparse =>
      rw [hpc] at hread
      dsimp only at hread
      rw [hparse] at hread
      exact ⟨hread targets rfl, hsettled, hdecodes⟩
  | startsAfresh config targets hpc | clears config targets hpc =>
      rw [hpc] at spaceless
      exact ⟨spaceless, hsettled, hdecodes⟩
  | copiesCache config targets old copied hpc hold hcopy =>
      rw [hpc] at spaceless
      rw [rtgtargetsCopyCache_ok hcopy]
      exact ⟨joinHosts_spaceless spaceless old.hosts, hsettled, hdecodes⟩
  | begins config targets hpc =>
      rw [hpc] at spaceless
      refine ⟨events, [], rfl, settled, decodes, ?_⟩
      exact RunThreads.recording_start (patch_queue settings config) spaceless _ _ _ _ _

theorem balanced_keeps (settings : Settings) :
    Keeps (Observed.step (step settings) rowEvents)
      (fun label o => Printing settings label o.state) Balanced := by
  intro label o next printing balanced hstep
  obtain ⟨hmake, hevents⟩ := Observed.step_eq_some.mp hstep
  obtain ⟨state, events⟩ := o
  obtain ⟨nextState, nextEvents⟩ := next
  dsimp only at hmake hevents printing
  subst hevents
  cases step_move hmake with
  | ticks | signals | callsCllog | logs =>
      obtain ⟨spaceless, settled, decodes⟩ := balanced
      exact ⟨spaceless, settled.quiet, decodes.quiet⟩
  | handles a b hhandler =>
      obtain ⟨spaceless, settled, decodes⟩ := balanced
      refine ⟨?_, settled.quiet, decodes.quiet⟩
      rw [(Alone.handlerStep_main hhandler).1]
      exact spaceless
  | main input a =>
      obtain ⟨spaceless, settled, decodes⟩ := balanced
      exact mainStep_balanced spaceless settled decodes printing.1
  | creates input config targets created program hleft =>
      obtain ⟨past, flows, hpast, settled, decodes, recording⟩ := balanced
      refine ⟨past, flows, ?_, settled, decodes, recording⟩
      have hquiet : rowEvents (.main input) (.running config targets created program) = [] :=
        if_pos hleft
      rw [hquiet, List.append_nil]
      exact hpast
  | leaves input config targets created program hjoined hall =>
      obtain ⟨past, flows, hpast, settled, decodes, recording⟩ := balanced
      dsimp only at hpast
      subst hpast
      have hlost : rowEvents (.main input) (.running config targets created program) =
          [.dropped (entriesOf config (program.samplesOf .refused)),
            .freed (entriesOf config (program.samplesOf .queue))] :=
        if_neg (not_le.mpr hall)
      rw [hlost]
      refine ⟨trivial, leave_settled settled recording hjoined.1, ?_⟩
      exact leave_decodes (running_decodes decodes recording.recorded) _ _
  | threads config targets created program after label hrunning =>
      obtain ⟨past, flows, hpast, settled, decodes, recording⟩ := balanced
      dsimp only at hpast
      subst hpast
      have hshows : rowEvents (.threads label) (.running config targets created program) =
          runningRows config label program := dif_pos ⟨rfl, rfl⟩
      refine ⟨past, flows ++ RunThreads.flows label program, ?_, settled, decodes, ?_⟩
      · rw [hshows, runningRows, List.map_append, List.append_assoc]
      · have htime : program.threads.time < 2 ^ 63 := printing.2
        exact RunThreads.recording_keeps config label ⟨program, flows⟩ ⟨after, _⟩ htime
          recording (Observed.step_eq_some.mpr ⟨hrunning, rfl⟩)

end Steps

/-- In every run of the process whose targets have no spaces in the names of
their tables, over any number of reloads, every query that was sent reads as an
INSERT statement, and the rows of the samples that were stored are the rows of
the queries that succeeded, those of the queries that MySQL refused, those that
found no room in the queue, those that were freed with it, and those that the
running threads still hold, each as often as it was stored. -/
theorem rows_accounted (settings : Settings) (clock : Nat) {labels : List Label}
    {o : Observed State RowEvent}
    (hrun : run (Observed.step (step settings) rowEvents) labels
      (Observed.begin (.alone (Alone.start clock))) = some o)
    (printing : Guarded (step settings) (Printing settings) labels
      (.alone (Alone.start clock))) :
    Decodes o.events ∧
      total RowEvent.sampledRows o.events =
        total (RowEvent.sentRows true) o.events + total (RowEvent.sentRows false) o.events +
          total RowEvent.droppedRows o.events + total RowEvent.freedRows o.events +
          o.state.rowsHeld := by
  have hstart : Balanced (Observed.begin (.alone (Alone.start clock))) := ⟨trivial, rfl, nofun⟩
  have hbalanced := (balanced_keeps settings).run (Observed.guarded_iff.mpr printing) hstart hrun
  obtain ⟨state, events⟩ := o
  cases state with
  | alone a => exact ⟨hbalanced.2.2, hbalanced.2.1.trans (add_zero _).symm⟩
  | running config targets created program =>
      obtain ⟨past, flows, rfl, settled, decodes, recording⟩ := hbalanced
      exact ⟨running_decodes decodes recording.recorded, running_total settled recording.recorded⟩
  | ended ending a => exact ⟨hbalanced.2, hbalanced.1.trans (add_zero _).symm⟩

/-! ## A gauge -/

def gaugeFile : File := some "switch\t1.7\t0\tcampus\tifSpeed\t3\n".toList

/-- Values of zero become rows, too. -/
def zeroSettings : Settings := { defaultSettings with allowDbZero := true }

/-- `(unsigned) 10e9` keeps the low 32 bits. -/
def readsCut (file : File) : Label :=
  .main { file := file, memory := defaultRtgconf, unspecified := ⟨1410065408, fun _ => 0⟩ }

def firstPoller : Fin 8 := ⟨0, Nat.zero_lt_succ 7⟩

/-- The gauge reads zero, and its insert is queued. -/
def queuesGauge : List Label :=
  List.replicate 5 (pollerStepOf firstPoller {}) ++
    [pollerStepOf firstPoller { spurious := true }] ++
    List.replicate 9 (pollerStepOf firstPoller {}) ++
    [pollerStepOf firstPoller { reply := some 0 }] ++
    List.replicate 4 (pollerStepOf firstPoller {}) ++
    List.replicate 8 (@Label.threads 8 1 (.queries firstPoller 0))

def gaugeLabels : List Label :=
  .tick 1000 :: [none, smallConf, gaugeFile, none].map readsCut ++
    List.replicate 12 (readsCut none) ++ queuesGauge ++
    List.replicate 14 (@Label.threads 8 1 (.database (Fin.last 0) {})) ++ hangsUp ++
    [readsCut none]

def gaugeEntry : Entry := ("ifSpeed".toList, ⟨3, 1, 0, some 0, none⟩)

/-- The row of the gauge is sent before the process reads its files again. -/
theorem rows_accounted_gauge :
    ∃ o, run (Observed.step (step zeroSettings) rowEvents) gaugeLabels
        (Observed.begin (.alone (Alone.start 0))) = some o ∧
      total RowEvent.sampledRows o.events = {gaugeEntry} ∧
      total (RowEvent.sentRows true) o.events = {gaugeEntry} := by
  have hshown : (run (Observed.step (step zeroSettings) rowEvents) gaugeLabels
      (Observed.begin (.alone (Alone.start 0)))).map (fun o =>
        [total RowEvent.sampledRows o.events, total (RowEvent.sentRows false) o.events,
          total RowEvent.droppedRows o.events, total RowEvent.freedRows o.events,
          o.state.rowsHeld]) = some [{gaugeEntry}, 0, 0, 0, 0] := by
    decide +kernel
  have printing : Guarded (step zeroSettings) (Printing zeroSettings) gaugeLabels
      (.alone (Alone.start 0)) := by
    decide +kernel
  obtain ⟨o, hrun, hmade⟩ := Option.map_eq_some_iff.mp hshown
  simp only [List.cons.injEq, and_true] at hmade
  obtain ⟨hsampled, hrejected, hdropped, hfreed, hheld⟩ := hmade
  have haccount := (rows_accounted zeroSettings 0 hrun printing).2
  rw [hsampled, hrejected, hdropped, hfreed, hheld] at haccount
  simp only [add_zero] at haccount
  exact ⟨o, hrun, hsampled, haccount.symm⟩

end ClusteredPoller.Process
