import ClusteredPoller.Library.Meter
import ClusteredPoller.Library.Observation
import ClusteredPoller.Threads.Frame
import ClusteredPoller.Threads.IterationEnd

/-!
# The ledger of the statistics

The pollers add to the counters with `global_lock` held; `end_iteration` reads
them for its report and later sets them to zero, without the lock.  It relies on
no poller being active, and it does not read `insert_rows` at all.
-/

namespace ClusteredPoller.Threads

open Library Poller State

/-! ## Additions and reports -/

inductive LedgerEvent where
  /-- A poller adds to the counter. -/
  | added (field : StatisticsField) (amount : UInt32)
  /-- `end_iteration` resets the counter, having read a value for its report. -/
  | reported (field : StatisticsField) (value : UInt32)
  deriving DecidableEq

/-- The last value of a counter that a report has read, or zero if there is none. -/
def lastRead (field : StatisticsField) (report : List (StatisticsField × UInt32)) : UInt32 :=
  ((report.filter fun reading => reading.1 = field).map Prod.snd).getLastD 0

section Events

variable {n : Nat}

def ledgerEvents : Label n → State n → List LedgerEvent
  | .poller i _, s =>
      match (s.pollers i).pc with
      | .processing _ _ (.snmpUpdate progress) =>
          [.added .snmpFail progress.snmpFail, .added .snmpSuccess progress.snmpSuccess]
      | .processing _ _ (.statsUpdate totals) =>
          [.added .insertRows totals.queuedValues, .added .insertQueries totals.queuedQueries]
      | _ => []
  | .monitor, s =>
      match s.monitor.pc with
      | .ending (.clear field :: _) => [.reported field (lastRead field s.monitor.report)]
      | _ => []
  | _, _ => []

def LedgerEvent.addition (field : StatisticsField) : LedgerEvent → Nat
  | .added other amount => if other = field then amount.toNat else 0
  | .reported _ _ => 0

def LedgerEvent.report (field : StatisticsField) : LedgerEvent → Nat
  | .added _ _ => 0
  | .reported other value => if other = field then value.toNat else 0

/-- What the pollers have added to the counter. -/
def addedTo (field : StatisticsField) (events : List LedgerEvent) : Nat :=
  (events.map (LedgerEvent.addition field)).sum

/-- What the reports have read of the counter before its resets. -/
def reportedOf (field : StatisticsField) (events : List LedgerEvent) : Nat :=
  (events.map (LedgerEvent.report field)).sum

/-- When a counter is reset, it is what the report has read, and no addition
wraps a counter around. -/
def KeepsUpdates : Label n → State n → Prop
  | .poller i _, s =>
      match (s.pollers i).pc with
      | .processing _ _ (.snmpUpdate progress) =>
          s.statistics.snmpFail.toNat + progress.snmpFail.toNat < 2 ^ 32 ∧
            s.statistics.snmpSuccess.toNat + progress.snmpSuccess.toNat < 2 ^ 32
      | .processing _ _ (.statsUpdate totals) =>
          s.statistics.insertRows.toNat + totals.queuedValues.toNat < 2 ^ 32 ∧
            s.statistics.insertQueries.toNat + totals.queuedQueries.toNat < 2 ^ 32
      | _ => True
  | .monitor, s =>
      match s.monitor.pc with
      | .ending (.clear field :: _) =>
          field ∈ ledgerFields → s.statistics.read field = lastRead field s.monitor.report
      | _ => True
  | _, _ => True

end Events

/-! ## A counter as a meter -/

section Meters

variable {n : Nat}

/-- What the report has read of a counter that is still to be reset. -/
def MonitorThread.pending (monitor : MonitorThread) (field : StatisticsField) : UInt32 :=
  match monitor.pc with
  | .ending actions => if .clear field ∈ actions then lastRead field monitor.report else 0
  | _ => 0

def meter (field : StatisticsField) (o : Observed (State n) LedgerEvent) : Meter where
  added := addedTo field o.events
  reported := reportedOf field o.events
  current := (o.state.statistics.read field).toNat
  noted := (o.state.monitor.pending field).toNat

/-- What the step of a label does to the meter of a counter. -/
def move (field : StatisticsField) : Label n → State n → Meter.Move
  | .poller i _, s =>
      match (s.pollers i).pc with
      | .processing _ _ (.snmpUpdate progress) =>
          match field with
          | .snmpFail => .add progress.snmpFail.toNat
          | .snmpSuccess => .add progress.snmpSuccess.toNat
          | _ => .rest
      | .processing _ _ (.statsUpdate totals) =>
          match field with
          | .insertRows => .add totals.queuedValues.toNat
          | .insertQueries => .add totals.queuedQueries.toNat
          | _ => .rest
      | _ => .rest
  | .monitor, s =>
      match s.monitor.pc with
      | .ending (.read other :: _) => if other = field then .note else .rest
      | .ending (.clear other :: _) => if other = field then .reset else .rest
      | _ => .rest
  | _, _ => .rest

/-- Every reading comes before the reset of its counter, and there is one reset. -/
def Orderly : List EndAction → Prop
  | [] => True
  | .read field :: actions => (field ∈ ledgerFields → .clear field ∈ actions) ∧ Orderly actions
  | .clear field :: actions => .clear field ∉ actions ∧ Orderly actions
  | .readClock :: actions | .readFinished :: actions => Orderly actions

theorem orderly_endActions : Orderly endActions := by
  simp [Orderly, endActions, ledgerFields]

/-- In `end_iteration`, what is left to do is in order. -/
def EndsOrderly (s : State n) : Prop :=
  ∀ actions, s.monitor.pc = .ending actions → Orderly actions

theorem addedTo_append (field : StatisticsField) (events more : List LedgerEvent) :
    addedTo field (events ++ more) = addedTo field events + addedTo field more := by
  rw [addedTo, List.map_append, List.sum_append]
  rfl

theorem reportedOf_append (field : StatisticsField) (events more : List LedgerEvent) :
    reportedOf field (events ++ more) = reportedOf field events + reportedOf field more := by
  rw [reportedOf, List.map_append, List.sum_append]
  rfl

theorem lastRead_append (field : StatisticsField) (report : List (StatisticsField × UInt32))
    (other : StatisticsField) (value : UInt32) :
    lastRead field (report ++ [(other, value)]) =
      if other = field then value else lastRead field report := by
  rw [lastRead, List.filter_append, List.map_append]
  by_cases hother : other = field
  · simp [hother]
  · simp [hother, lastRead]

end Meters

/-! ## What the steps do to the counters -/

section Steps

variable {n : Nat} {config : Rtgconf} {meets : Meeting} {s next t : State n} {i : Fin n}
  {field : StatisticsField}

/-- The steps of `end_iteration` that are left. -/
def MonitorPc.toDo : MonitorPc → Option (List EndAction)
  | .ending actions => some actions
  | _ => none

/-- Outside the steps of `end_iteration`, the monitor leaves the counters alone, no
reading is pending, and `end_iteration` begins with all of its steps. -/
structure MonitorElsewhere (s next : State n) : Prop where
  counters : KeepsCounters s next
  pending : ∀ field, next.monitor.pending field = 0
  ending : ∀ actions, next.monitor.pc = .ending actions → actions = endActions

theorem elsewhere_of_pc (counters : KeepsCounters s next)
    (hpc : next.monitor.pc.toDo = none) : MonitorElsewhere s next where
  counters := counters
  pending field := by
    rw [MonitorThread.pending]
    split
    · rename_i heq
      rw [heq] at hpc
      cases hpc
    · rfl
  ending actions heq := by
    rw [heq] at hpc
    cases hpc

theorem monitorStep_elsewhere (hpc : ∀ actions, s.monitor.pc ≠ .ending actions)
    (hstep : monitorStep config s = some next) : MonitorElsewhere s next := by
  obtain ⟨pc, hbefore, move⟩ := monitorStep_move hstep
  cases move with
  | acts | early | late => exact absurd hbefore (hpc _)
  | ends =>
      refine ⟨keepsCounters_of_statistics rfl, fun field => ?_, fun actions heq => ?_⟩
      · rw [MonitorThread.pending]
        exact ite_self 0
      · cases heq
        rfl
  | counts =>
      refine elsewhere_of_pc (fun field hfield => ?_) rfl
      cases field with
      | iterations => exact absurd hfield (by decide)
      | _ => rfl
  | _ => exact elsewhere_of_pc (keepsCounters_of_statistics rfl) rfl

end Steps

/-! ## The meters follow the moves -/

section Moves

variable {n : Nat} {config : Rtgconf} {label : Label n} {o next : Observed (State n) LedgerEvent}
  {field : StatisticsField}

theorem meter_rest (hevents : next.events = o.events)
    (hcounter : next.state.statistics.read field = o.state.statistics.read field)
    (hpending : next.state.monitor.pending field = o.state.monitor.pending field) :
    meter field next = meter field o := by
  rw [meter, hevents, hcounter, hpending]
  rfl

/-- The new events add an amount to the counter, as the step does. -/
theorem meter_add {more : List LedgerEvent} {amount : UInt32}
    (hevents : next.events = o.events ++ more) (hadded : addedTo field more = amount.toNat)
    (hreported : reportedOf field more = 0)
    (hcounter : next.state.statistics.read field = o.state.statistics.read field + amount)
    (hmonitor : next.state.monitor = o.state.monitor) :
    meter field next = (meter field o).next (2 ^ 32) (.add amount.toNat) := by
  ext
  · change addedTo field next.events = addedTo field o.events + amount.toNat
    rw [hevents, addedTo_append, hadded]
  · change reportedOf field next.events = reportedOf field o.events
    rw [hevents, reportedOf_append, hreported, Nat.add_zero]
  · change (next.state.statistics.read field).toNat = _
    rw [hcounter, UInt32.toNat_add]
    rfl
  · change (next.state.monitor.pending field).toNat = (o.state.monitor.pending field).toNat
    rw [hmonitor]

/-- The new events have nothing to do with the counter, and the step neither. -/
theorem meter_unmoved {more : List LedgerEvent} (hevents : next.events = o.events ++ more)
    (hadded : addedTo field more = 0) (hreported : reportedOf field more = 0)
    (hcounter : next.state.statistics.read field = o.state.statistics.read field)
    (hpending : next.state.monitor.pending field = o.state.monitor.pending field) :
    meter field next = meter field o := by
  rw [meter, hevents, addedTo_append, reportedOf_append, hadded, hreported, hcounter, hpending]
  rfl

theorem updates_eq_false {pc : PollerPc}
    (hsnmp : ∀ host round progress, pc ≠ .processing host round (.snmpUpdate progress))
    (hqueries : ∀ host round totals, pc ≠ .processing host round (.statsUpdate totals)) :
    pc.updates = false := by
  cases pc with
  | processing host round stage =>
      cases stage with
      | snmpUpdate progress => exact absurd rfl (hsnmp host round progress)
      | statsUpdate totals => exact absurd rfl (hqueries host round totals)
      | _ => rfl
  | _ => rfl

/-- A step of a poller between the updates. -/
theorem quiet_poller {s : State n} {i : Fin n} (meets : Meeting) (field : StatisticsField)
    (hquiet : (s.pollers i).pc.updates = false) :
    ledgerEvents (.poller i meets) s = [] ∧ move field (.poller i meets) s = .rest := by
  rw [ledgerEvents, move]
  cases hpc : (s.pollers i).pc with
  | processing host round stage =>
      rw [hpc] at hquiet
      cases stage with
      | snmpUpdate | statsUpdate => cases hquiet
      | _ => exact ⟨rfl, rfl⟩
  | _ => exact ⟨rfl, rfl⟩

theorem meter_poller {i : Fin n} {meets : Meeting} (hfield : field ∈ ledgerFields)
    (hevents : next.events = o.events ++ ledgerEvents (.poller i meets) o.state)
    (hmonitor : next.state.monitor = o.state.monitor)
    (effect : StatisticsEffect i o.state next.state) :
    meter field next = (meter field o).next (2 ^ 32) (move field (.poller i meets) o.state) := by
  have hpending : next.state.monitor.pending field = o.state.monitor.pending field := by
    rw [hmonitor]
  cases effect with
  | snmp host round progress hpc hafter =>
      rw [ledgerEvents, hpc] at hevents
      rw [move, hpc]
      cases field with
      | snmpFail => exact meter_add hevents rfl rfl (by rw [hafter]; rfl) hmonitor
      | snmpSuccess =>
          exact meter_add hevents (Nat.zero_add _) rfl (by rw [hafter]; rfl) hmonitor
      | insertRows | insertQueries =>
          exact meter_unmoved hevents rfl rfl (by rw [hafter]; rfl) hpending
      | _ => exact absurd hfield (by decide)
  | queries host round totals hpc hafter =>
      rw [ledgerEvents, hpc] at hevents
      rw [move, hpc]
      cases field with
      | insertRows => exact meter_add hevents rfl rfl (by rw [hafter]; rfl) hmonitor
      | insertQueries =>
          exact meter_add hevents (Nat.zero_add _) rfl (by rw [hafter]; rfl) hmonitor
      | snmpFail | snmpSuccess =>
          exact meter_unmoved hevents rfl rfl (by rw [hafter]; rfl) hpending
      | _ => exact absurd hfield (by decide)
  | other hquiet hkeeps =>
      obtain ⟨hnone, hrest⟩ := quiet_poller meets field hquiet
      rw [hnone, List.append_nil] at hevents
      rw [hrest]
      exact meter_rest hevents (hkeeps field hfield) hpending

theorem read_clear_self (statistics : Statistics) (field : StatisticsField) :
    (statistics.clear field).read field = 0 := by
  cases field <;> rfl

theorem read_clear_of_ne (statistics : Statistics) {field other : StatisticsField}
    (hne : other ≠ field) : (statistics.clear other).read field = statistics.read field := by
  cases field <;> cases other <;> first | rfl | exact absurd rfl hne

theorem pending_ending {monitor : MonitorThread} {actions : List EndAction}
    (hpc : monitor.pc = .ending actions) (field : StatisticsField) :
    monitor.pending field =
      if .clear field ∈ actions then lastRead field monitor.report else 0 := by
  rw [MonitorThread.pending, hpc]

theorem meter_ending {action : EndAction} {actions : List EndAction}
    (hfield : field ∈ ledgerFields) (hpc : o.state.monitor.pc = .ending (action :: actions))
    (orderly : Orderly (action :: actions))
    (hstate : next.state = (o.state.endAction action).monitorGoto (.ending actions))
    (hevents : next.events = o.events ++ ledgerEvents .monitor o.state) :
    meter field next = (meter field o).next (2 ^ 32) (move field .monitor o.state) := by
  have hafter : next.state.monitor.pc = .ending actions := by rw [hstate]; rfl
  rw [ledgerEvents, hpc] at hevents
  rw [move, hpc]
  cases action with
  | readClock | readFinished =>
      refine meter_rest (hevents.trans (List.append_nil _)) (by rw [hstate]; rfl) ?_
      rw [pending_ending hafter, pending_ending hpc, hstate]
      simp [endAction, monitorGoto]
  | read other =>
      dsimp only
      have hevents' : next.events = o.events := hevents.trans (List.append_nil _)
      have hreport : next.state.monitor.report =
          o.state.monitor.report ++ [(other, o.state.statistics.read other)] := by
        rw [hstate]
        rfl
      have hstatistics : next.state.statistics = o.state.statistics := by rw [hstate]; rfl
      by_cases hother : other = field
      · subst hother
        rw [if_pos rfl, meter, pending_ending hafter, if_pos (orderly.1 hfield), hreport,
          lastRead_append, if_pos rfl, hevents', hstatistics]
        rfl
      · rw [if_neg hother]
        refine meter_rest hevents' (by rw [hstatistics]) ?_
        rw [pending_ending hafter, pending_ending hpc, hreport, lastRead_append, if_neg hother]
        simp
  | clear other =>
      dsimp only at hevents ⊢
      have hreport : next.state.monitor.report = o.state.monitor.report := by
        rw [hstate]
        rfl
      have hstatistics : next.state.statistics = o.state.statistics.clear other := by
        rw [hstate]
        rfl
      by_cases hother : other = field
      · subst hother
        have hpending : o.state.monitor.pending other =
            lastRead other o.state.monitor.report := by
          rw [pending_ending hpc, if_pos List.mem_cons_self]
        rw [if_pos rfl, meter, pending_ending hafter, if_neg orderly.1, hevents, hstatistics,
          read_clear_self, addedTo_append, reportedOf_append]
        ext
        · rfl
        · change reportedOf other o.events + reportedOf other [.reported other _] =
            reportedOf other o.events + (o.state.monitor.pending other).toNat
          rw [hpending]
          simp [reportedOf, LedgerEvent.report]
        · rfl
        · rfl
      · rw [if_neg hother]
        refine meter_unmoved hevents rfl ?_ ?_ ?_
        · simp [reportedOf, LedgerEvent.report, hother]
        · rw [hstatistics, read_clear_of_ne _ hother]
        · rw [pending_ending hafter, pending_ending hpc, hreport]
          simp [Ne.symm hother]

theorem meter_monitor (hfield : field ∈ ledgerFields) (orderly : EndsOrderly o.state)
    (hstep : monitorStep config o.state = some next.state)
    (hevents : next.events = o.events ++ ledgerEvents .monitor o.state) :
    meter field next = (meter field o).next (2 ^ 32) (move field .monitor o.state) := by
  by_cases hending : ∃ actions, o.state.monitor.pc = .ending actions
  · obtain ⟨actions, hpc⟩ := hending
    rw [monitorStep, hpc] at hstep
    cases actions with
    | cons action actions =>
        exact meter_ending hfield hpc (orderly _ hpc) (Option.some.inj hstep).symm hevents
    | nil =>
        rw [ledgerEvents, hpc] at hevents
        rw [move, hpc]
        have hpending : o.state.monitor.pending field = 0 := by
          rw [pending_ending hpc, if_neg List.not_mem_nil]
        rw [monitorStepAt] at hstep
        split at hstep
        · have hnext := Option.some.inj hstep
          refine meter_rest (hevents.trans (List.append_nil _)) (by rw [← hnext]; rfl) ?_
          rw [hpending, ← hnext]
          rfl
        · have hnext := Option.some.inj hstep
          refine meter_rest (hevents.trans (List.append_nil _)) (by rw [← hnext]; rfl) ?_
          rw [hpending, ← hnext]
          rfl
  · have hpc : ∀ actions, o.state.monitor.pc ≠ .ending actions :=
      fun actions heq => hending ⟨actions, heq⟩
    have elsewhere := monitorStep_elsewhere hpc hstep
    have hquiet : ledgerEvents .monitor o.state = [] ∧ move field .monitor o.state = .rest ∧
        o.state.monitor.pending field = 0 := by
      rw [ledgerEvents, move, MonitorThread.pending]
      cases hbefore : o.state.monitor.pc with
      | ending actions => exact absurd hbefore (hpc actions)
      | _ => exact ⟨rfl, rfl, rfl⟩
    obtain ⟨hnone, hrest, hpending⟩ := hquiet
    rw [hnone, List.append_nil] at hevents
    rw [hrest]
    exact meter_rest hevents (elsewhere.counters field hfield)
      ((elsewhere.pending field).trans hpending.symm)

theorem keepsUpdates_clear {other : StatisticsField} {actions : List EndAction}
    (hpc : o.state.monitor.pc = .ending (.clear other :: actions)) :
    (other ∈ ledgerFields →
        o.state.statistics.read other = lastRead other o.state.monitor.report) ↔
      ∀ field ∈ ledgerFields, ¬ (meter field o).Loses (2 ^ 32) (move field .monitor o.state) := by
  have hpending : o.state.monitor.pending other = lastRead other o.state.monitor.report := by
    rw [pending_ending hpc, if_pos List.mem_cons_self]
  constructor
  · intro hread field hfield
    rw [move, hpc]
    dsimp only
    by_cases hother : other = field
    · subst hother
      rw [if_pos rfl, Meter.Loses, not_not, meter, hpending, hread hfield]
    · rw [if_neg hother]
      exact not_false
  · intro hnone hother
    have hloses := hnone other hother
    rw [move, hpc] at hloses
    dsimp only at hloses
    rw [if_pos rfl, Meter.Loses, not_not, meter, hpending] at hloses
    exact UInt32.toNat_inj.mp hloses

theorem EndsOrderly.monitor {s t : State n} (orderly : EndsOrderly s)
    (hstep : monitorStep config s = some t) : EndsOrderly t := by
  intro after hafter
  by_cases hending : ∃ actions, s.monitor.pc = .ending actions
  · obtain ⟨actions, hpc⟩ := hending
    have hactions := orderly actions hpc
    rw [monitorStep, hpc] at hstep
    cases actions with
    | cons action actions =>
        cases hstep
        cases hafter
        cases action with
        | readClock | readFinished => exact hactions
        | read field => exact hactions.2
        | clear field => exact hactions.2
    | nil =>
        rw [monitorStepAt] at hstep
        split at hstep
        · cases hstep
          cases hafter
        · cases hstep
          cases hafter
  · have elsewhere := monitorStep_elsewhere (fun actions heq => hending ⟨actions, heq⟩) hstep
    rw [elsewhere.ending after hafter]
    exact orderly_endActions

/-- What the condition says, for one counter after the other. -/
theorem keepsUpdates_iff (label : Label n) (o : Observed (State n) LedgerEvent) :
    KeepsUpdates label o.state ↔
      ∀ field ∈ ledgerFields, ¬ (meter field o).Loses (2 ^ 32) (move field label o.state) := by
  cases label with
  | poller i meets =>
      rw [KeepsUpdates]
      split
      · rename_i hpc
        simp [ledgerFields, move, hpc, Meter.Loses, meter, Statistics.read, and_comm]
      · rename_i hpc
        simp [ledgerFields, move, hpc, Meter.Loses, meter, Statistics.read]
      · rename_i hsnmp hqueries
        refine iff_of_true trivial fun field _ => ?_
        rw [(quiet_poller meets field (updates_eq_false hsnmp hqueries)).2]
        exact not_false
  | monitor =>
      rw [KeepsUpdates]
      cases hpc : o.state.monitor.pc with
      | ending actions =>
          cases actions with
          | nil =>
              refine iff_of_true trivial fun field _ => ?_
              rw [move, hpc]
              exact not_false
          | cons action actions =>
              cases action with
              | clear other => exact keepsUpdates_clear hpc
              | readClock | readFinished =>
                  refine iff_of_true trivial fun field _ => ?_
                  rw [move, hpc]
                  exact not_false
              | read other =>
                  refine iff_of_true trivial fun field _ => ?_
                  rw [move, hpc]
                  dsimp only
                  split
                  · exact not_false
                  · exact not_false
      | _ =>
          refine iff_of_true trivial fun field _ => ?_
          rw [move, hpc]
          exact not_false
  | tick | callsCllog | cllog | handler | signal => exact iff_of_true trivial fun _ _ => not_false

theorem EndsOrderly.step {s t : State n} (orderly : EndsOrderly s)
    (hstep : step config label s = some t) : EndsOrderly t := by
  obtain ⟨-, effect⟩ := step_effect hstep
  cases effect with
  | ticks ms hnext =>
      subst hnext
      exact orderly
  | polls i meets _ _ _ houtside =>
      have hmonitor : t.monitor = s.monitor := congrArg Outside.monitor houtside
      rw [EndsOrderly, hmonitor]
      exact orderly
  | monitors _ hmonitor => exact orderly.monitor hmonitor
  | handles thread _ effect =>
      rw [EndsOrderly, effect.monitor]
      exact orderly
  | calls _ _ _ hnext | logs _ _ _ _ hnext | signals _ _ _ hnext =>
      subst hnext
      exact orderly

theorem meter_step (hfield : field ∈ ledgerFields) (orderly : EndsOrderly o.state)
    (hstep : Observed.step (step config) ledgerEvents label o = some next) :
    meter field next = (meter field o).next (2 ^ 32) (move field label o.state) := by
  obtain ⟨hmake, hevents⟩ := Observed.step_eq_some.mp hstep
  obtain ⟨-, effect⟩ := step_effect hmake
  cases effect with
  | ticks ms hnext =>
      exact meter_rest (hevents.trans (List.append_nil _)) (by rw [hnext]) (by rw [hnext])
  | polls i meets _ hpolls _ houtside =>
      exact meter_poller hfield hevents (congrArg Outside.monitor houtside)
        (pollerStep_frame hpolls).statistics
  | monitors _ hmonitor => exact meter_monitor hfield orderly hmonitor hevents
  | handles thread hhandles effect =>
      exact meter_rest (hevents.trans (List.append_nil _))
        (handlerStep_counters hhandles field hfield) (by rw [effect.monitor])
  | calls _ _ _ hnext | logs _ _ _ _ hnext | signals _ _ _ hnext =>
      exact meter_rest (hevents.trans (List.append_nil _)) (by rw [hnext]) (by rw [hnext])

/-- The meters of the counters work, and `end_iteration` is in order. -/
def Metered (o : Observed (State n) LedgerEvent) : Prop :=
  EndsOrderly o.state ∧ ∀ field ∈ ledgerFields, (meter field o).Sound (2 ^ 32)

/-- Nothing is lost of what the pollers have added. -/
def UpdatesKept (o : Observed (State n) LedgerEvent) : Prop :=
  ∀ field ∈ ledgerFields, addedTo field o.events =
    reportedOf field o.events + (o.state.statistics.read field).toNat

theorem metered_keeps (config : Rtgconf) :
    Transition.Keeps (Observed.step (step config) ledgerEvents) (fun _ _ => True)
      (Metered (n := n)) := by
  intro label o next _ metered hstep
  refine ⟨metered.1.step (Observed.step_eq_some.mp hstep).1, fun field hfield => ?_⟩
  rw [meter_step hfield metered.1 hstep]
  exact (metered.2 field hfield).next _

/-- A step keeps all updates exactly if it meets the condition. -/
theorem updatesKept_step (metered : Metered o)
    (hstep : Observed.step (step config) ledgerEvents label o = some next) :
    UpdatesKept next ↔ UpdatesKept o ∧ KeepsUpdates label o.state := by
  have hbalanced : ∀ field ∈ ledgerFields, ((meter field next).Balanced ↔
      (meter field o).Balanced ∧
        ¬ (meter field o).Loses (2 ^ 32) (move field label o.state)) := by
    intro field hfield
    rw [meter_step hfield metered.1 hstep]
    exact (metered.2 field hfield).balanced_next _
  rw [keepsUpdates_iff]
  constructor
  · intro kept
    exact ⟨fun field hfield => ((hbalanced field hfield).mp (kept field hfield)).1,
      fun field hfield => ((hbalanced field hfield).mp (kept field hfield)).2⟩
  · rintro ⟨kept, hloses⟩ field hfield
    exact (hbalanced field hfield).mpr ⟨kept field hfield, hloses field hfield⟩

end Moves

/-! ## All runs -/

section Runs

variable {n : Nat} {config : Rtgconf} {labels : List (Label n)}
  {final : Observed (State n) LedgerEvent}

/-- In a lifetime that begins with all counters at zero, nothing of what the
pollers have added is lost exactly if every reset finds what the report has read,
and no addition wraps a counter around. -/
theorem updates_kept_iff {hosts : List Queryhost} {clock : Nat} {nextIteration : Int}
    {statistics : Statistics}
    (hzero : ∀ field ∈ ledgerFields,
      (State.start hosts clock nextIteration statistics : State n).statistics.read field = 0)
    (hrun : Transition.run (Observed.step (step config) ledgerEvents) labels
      (Observed.begin (State.start hosts clock nextIteration statistics)) = some final) :
    (∀ field ∈ ledgerFields, addedTo field final.events =
        reportedOf field final.events + (final.state.statistics.read field).toNat) ↔
      Transition.Guarded (step config) KeepsUpdates labels
        (State.start hosts clock nextIteration statistics) := by
  have hguarded := @Observed.guarded_iff _ _ _ (step config) ledgerEvents KeepsUpdates labels
    (Observed.begin (State.start hosts clock nextIteration statistics : State n))
  have hmeter : ∀ field ∈ ledgerFields, meter field
      (Observed.begin (State.start hosts clock nextIteration statistics : State n)) =
        ⟨0, 0, 0, 0⟩ := by
    intro field hfield
    rw [meter, Observed.begin, hzero field hfield]
    rfl
  have hstart : Metered
      (Observed.begin (State.start hosts clock nextIteration statistics : State n)) := by
    refine ⟨nofun, fun field hfield => ?_⟩
    rw [hmeter field hfield]
    exact ⟨by decide, by decide, Nat.le_refl _, Or.inl (Nat.le_refl _)⟩
  have hkept : UpdatesKept
      (Observed.begin (State.start hosts clock nextIteration statistics : State n)) := by
    intro field hfield
    rw [Observed.begin, hzero field hfield]
    rfl
  exact ((Transition.Guarded.iff_of_steps (metered_keeps config)
    (fun label o next _ metered hstep => updatesKept_step metered hstep)
    (Transition.guarded_of_labels (fun _ _ _ => trivial) _) hstart hrun).trans
    (and_iff_right hkept)).trans hguarded

end Runs

/-- The iteration of `completeRun` is reported and ended. -/
def reportedRun : List (Label 1) := completeRun ++ monitorSteps 23

theorem updates_kept_iff_reportedRun :
    ∃ final, Transition.run (Observed.step (step defaultRtgconf) ledgerEvents) reportedRun
        (Observed.begin (State.start oneCounter 299650 0 Statistics.initial)) = some final ∧
      reportedOf .snmpFail final.events = 1 ∧
      ((∀ field ∈ ledgerFields, addedTo field final.events =
          reportedOf field final.events + (final.state.statistics.read field).toNat) ↔
        Transition.Guarded (step defaultRtgconf) KeepsUpdates reportedRun
          (State.start oneCounter 299650 0 Statistics.initial)) :=
  ⟨_, rfl, rfl, updates_kept_iff (by decide) (rfl :
    Transition.run (Observed.step (step defaultRtgconf) ledgerEvents) reportedRun
      (Observed.begin (State.start oneCounter 299650 0 Statistics.initial)) = some _)⟩

/-- The poller of `sleepyRun` wakes up behind the readings of `end_iteration`, and
has queried its host before the resets. -/
def wakesBetween : List (Label 1) :=
  sleepyRun ++ monitorSteps 16 ++ pollerSteps onlyPoller 14 ++ monitorSteps 6

/-- The failed query is neither reported nor counted any longer. -/
theorem failed_query_lost :
    ∃ final, Transition.run (Observed.step (step defaultRtgconf) ledgerEvents) wakesBetween
        (Observed.begin (State.start oneCounter 299650 0 Statistics.initial)) = some final ∧
      addedTo .snmpFail final.events = 1 ∧ reportedOf .snmpFail final.events = 0 ∧
      final.state.statistics.read .snmpFail = 0 ∧
      ¬ ∀ field ∈ ledgerFields, addedTo field final.events =
        reportedOf field final.events + (final.state.statistics.read field).toNat := by
  have hrun : ∃ final,
      Transition.run (Observed.step (step defaultRtgconf) ledgerEvents) wakesBetween
        (Observed.begin (State.start oneCounter 299650 0 Statistics.initial)) = some final ∧
      addedTo .snmpFail final.events = 1 ∧ reportedOf .snmpFail final.events = 0 ∧
      final.state.statistics.read .snmpFail = 0 := ⟨_, rfl, rfl, rfl, rfl⟩
  obtain ⟨final, hrun, hadded, hreported, hcurrent⟩ := hrun
  refine ⟨final, hrun, hadded, hreported, hcurrent, fun kept => ?_⟩
  have hfail := kept .snmpFail (by decide)
  rw [hadded, hreported, hcurrent] at hfail
  exact absurd hfail (by decide)

end ClusteredPoller.Threads
