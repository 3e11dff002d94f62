import ClusteredPoller.Handover.Effects
import ClusteredPoller.Library.Holdings
import ClusteredPoller.Queue.ClbufRefinement
import Mathlib.Data.Fintype.Sum
import Mathlib.Data.Multiset.Range
import Mathlib.Tactic.DeriveFintype

/-!
# No insert is lost or handled twice

Every insert that was allocated is in one place: in the list of its poller, in
the queue, with a database thread, or freed.
-/

namespace ClusteredPoller.Handover

open Library Library.Outcome Poller Queue

inductive Place (n m : Nat) where
  /-- In the list of a poller and not yet handled. -/
  | unhandled (i : Fin n)
  | queue
  | held (j : Fin m)
  | freed
  deriving DecidableEq, Fintype

section Accounts

variable {n m : Nat}

/-- The inserts of one poller, in the order of the records. -/
def byPoller (i : Fin n) (records : List (Fin n × Nat)) : List Nat :=
  (records.filter fun record => record.1 = i).map Prod.snd

namespace Memory

/-- The inserts that were pushed, by whomever. -/
def pushed (memory : Memory n m) : List Nat := memory.pushes.map Prod.snd

def pushedBy (memory : Memory n m) (i : Fin n) : List Nat := byPoller i memory.pushes

def refusedBy (memory : Memory n m) (i : Fin n) : List Nat := byPoller i memory.refusals

def freedBy (memory : Memory n m) (i : Fin n) : List Nat := byPoller i memory.pollerFrees

end Memory

/-- The insert is in the place. -/
def State.At (s : State n m) (insert : Nat) : Place n m → Prop
  | .unhandled i => insert ∈ (s.pollers i).unhandled
  | .queue => some insert ∈ s.memory.queue.buffer
  | .held j => insert ∈ (s.databases j).held
  | .freed => insert ∈ s.memory.freed

/-- What the handling of the inserts guarantees. -/
structure InsertsAccounted (s : State n m) : Prop where
  onePlace : ∀ insert < s.memory.inserts.length, ∃! place, s.At insert place
  allocated : ∀ insert place, s.At insert place → insert < s.memory.inserts.length
  freedOnce : s.memory.freed.Nodup
  poppedOnce : s.memory.popped.Nodup
  /-- A poller has freed what was refused, except for the insert that it is
  about to free. -/
  refusedFreed : ∀ i, s.memory.refusedBy i = s.memory.freedBy i ++ (s.pollers i).refusing
  /-- What was popped of a poller's inserts is the beginning of what it pushed. -/
  inOrder : ∀ i, s.memory.popped.filter (fun insert => insert ∈ s.memory.pushedBy i) <+:
    s.memory.pushedBy i

/-! ## The history -/

theorem filterMap_record {β : Type} (memory : Memory n m) (event : Event n m)
    (view : Event n m → Option β) :
    (memory.record event).history.filterMap view =
      memory.history.filterMap view ++ (view event).toList := by
  rw [Memory.record, List.filterMap_append]
  rfl

theorem byPoller_append (i : Fin n) (records more : List (Fin n × Nat)) :
    byPoller i (records ++ more) = byPoller i records ++ byPoller i more := by
  rw [byPoller, List.filter_append, List.map_append, byPoller, byPoller]

theorem byPoller_single (i k : Fin n) (insert : Nat) :
    byPoller i [(k, insert)] = if k = i then [insert] else [] := by
  unfold byPoller
  by_cases hki : k = i <;> simp [hki]

/-- Among items of one poller each, a poller's are those that it recorded. -/
theorem filter_byPoller {records : List (Fin n × Nat)} (hnodup : (records.map Prod.snd).Nodup)
    (i : Fin n) :
    (records.map Prod.snd).filter (fun insert => insert ∈ byPoller i records) =
      byPoller i records := by
  rw [List.filter_map]
  refine congrArg (List.map Prod.snd) (List.filter_congr fun record hrecord => ?_)
  refine decide_eq_decide.mpr ?_
  constructor
  · intro hmem
    obtain ⟨other, hother, hsnd⟩ := List.mem_map.mp hmem
    obtain ⟨hother, hfst⟩ := List.mem_filter.mp hother
    have heq : other = record := List.inj_on_of_nodup_map hnodup hother hrecord hsnd
    rw [← heq]
    exact of_decide_eq_true hfst
  · intro hfst
    exact List.mem_map.mpr ⟨record, List.mem_filter.mpr ⟨hrecord, decide_eq_true hfst⟩, rfl⟩

/-! ## The invariant -/

/-- The bag of inserts in each place. -/
def State.holds (s : State n m) : Place n m → Multiset Nat
  | .unhandled i => (s.pollers i).unhandled
  | .queue => s.memory.queue.stored
  | .held j => (s.databases j).held
  | .freed => s.memory.freed

structure Accounted (s : State n m) : Prop where
  stores : s.memory.queue.Stores s.memory.queue.stored
  total : Holdings.total s.holds = Multiset.range s.memory.inserts.length
  order : s.memory.pushed = s.memory.popped ++ s.memory.queue.stored
  pushedOnce : s.memory.pushed.Nodup
  popped : ∀ insert ∈ s.memory.popped,
    (∃ j, insert ∈ (s.databases j).held) ∨ insert ∈ s.memory.freed
  refused : ∀ i, s.memory.refusedBy i = s.memory.freedBy i ++ (s.pollers i).refusing

section Places

variable {s : State n m}

theorem Accounted.nodup (accounted : Accounted s) : (Holdings.total s.holds).Nodup := by
  rw [accounted.total]
  exact Multiset.nodup_range _

theorem Accounted.at_iff (accounted : Accounted s) (insert : Nat) (place : Place n m) :
    s.At insert place ↔ insert ∈ s.holds place := by
  cases place with
  | unhandled i => exact Iff.rfl
  | queue => exact (accounted.stores.mem_iff insert).symm
  | held j => exact Iff.rfl
  | freed => exact Iff.rfl

/-- An insert is not in two places. -/
theorem Accounted.place_unique (accounted : Accounted s) {insert : Nat} {place other : Place n m}
    (hplace : insert ∈ s.holds place) (hother : insert ∈ s.holds other) : place = other :=
  (Holdings.existsUnique_holder accounted.nodup
    (Holdings.mem_total.mpr ⟨place, hplace⟩)).unique hplace hother

/-- What was pushed is in none of the pollers' lists. -/
theorem Accounted.pushed_place (accounted : Accounted s) {insert : Nat}
    (hpushed : insert ∈ s.memory.pushed) :
    ∃ place, insert ∈ s.holds place ∧ ∀ i, place ≠ .unhandled i := by
  rw [accounted.order] at hpushed
  rcases List.mem_append.mp hpushed with hpopped | hstored
  · rcases accounted.popped insert hpopped with ⟨j, hheld⟩ | hfreed
    · exact ⟨.held j, hheld, nofun⟩
    · exact ⟨.freed, hfreed, nofun⟩
  · exact ⟨.queue, hstored, nofun⟩

theorem Accounted.not_pushed (accounted : Accounted s) {insert : Nat} {i : Fin n}
    (hunhandled : insert ∈ (s.pollers i).unhandled) : insert ∉ s.memory.pushed := by
  intro hpushed
  obtain ⟨place, hplace, hne⟩ := accounted.pushed_place hpushed
  have hother : insert ∈ s.holds (.unhandled i) := hunhandled
  exact hne i (accounted.place_unique hplace hother)

theorem Accounted.insertsAccounted (accounted : Accounted s) : InsertsAccounted s where
  onePlace insert hinsert := by
    have hmem : insert ∈ Holdings.total s.holds := by
      rw [accounted.total]
      exact Multiset.mem_range.mpr hinsert
    simp only [accounted.at_iff]
    exact Holdings.existsUnique_holder accounted.nodup hmem
  allocated insert place hplace := by
    have hmem : insert ∈ Holdings.total s.holds :=
      Holdings.mem_total.mpr ⟨place, (accounted.at_iff insert place).mp hplace⟩
    rw [accounted.total] at hmem
    exact Multiset.mem_range.mp hmem
  freedOnce := Multiset.coe_nodup.mp (Holdings.nodup_holds accounted.nodup .freed)
  poppedOnce := by
    have hpushed := accounted.pushedOnce
    rw [accounted.order] at hpushed
    exact hpushed.of_append_left
  refusedFreed := accounted.refused
  inOrder i := by
    have hfilter := filter_byPoller accounted.pushedOnce i
    change s.memory.pushed.filter _ = _ at hfilter
    rw [accounted.order, List.filter_append] at hfilter
    exact ⟨_, hfilter⟩

end Places

/-! ## The steps -/

/-- A view of a thread that does not change is the same for all threads. -/
theorem update_same {κ β γ : Type} [DecidableEq κ] {threads : κ → β} {thread : κ} {value : β}
    (view : β → γ) (hsame : view value = view (threads thread)) (other : κ) :
    view (Function.update threads thread value other) = view (threads other) := by
  by_cases hother : other = thread
  · rw [hother, Function.update_self, hsame]
  · rw [Function.update_of_ne hother]

section Threads

variable {κ β : Type} [DecidableEq κ] {threads : κ → β} {thread : κ} {value : β} {item : Nat}

/-- What some thread has, it has still, unless it is the thread that steps. -/
theorem exists_update (view : β → List Nat) (hhas : ∃ other, item ∈ view (threads other)) :
    item ∈ view (threads thread) ∨
      ∃ other, item ∈ view (Function.update threads thread value other) := by
  obtain ⟨other, hother⟩ := hhas
  by_cases hsame : other = thread
  · exact Or.inl (hsame ▸ hother)
  · refine Or.inr ⟨other, ?_⟩
    rwa [Function.update_of_ne hsame]

theorem exists_update_self (view : β → List Nat) (hhas : item ∈ view value) :
    ∃ other, item ∈ view (Function.update threads thread value other) := by
  refine ⟨thread, ?_⟩
  rwa [Function.update_self]

end Threads

/-- Every insert has stayed where it was. -/
structure Unmoved (s next : State n m) : Prop where
  queue : next.memory.queue = s.memory.queue
  inserts : next.memory.inserts = s.memory.inserts
  pushes : next.memory.pushes = s.memory.pushes
  popped : next.memory.popped = s.memory.popped
  freed : next.memory.freed = s.memory.freed
  unhandled : ∀ i, (next.pollers i).unhandled = (s.pollers i).unhandled
  held : ∀ j, (next.databases j).held = (s.databases j).held

section Steps

variable {s next : State n m}

theorem Accounted.unmoved (accounted : Accounted s) (unmoved : Unmoved s next)
    (hrefused : ∀ i, next.memory.refusedBy i =
      next.memory.freedBy i ++ (next.pollers i).refusing) : Accounted next := by
  have hholds : next.holds = s.holds := by
    funext place
    cases place with
    | unhandled i => exact congrArg _ (unmoved.unhandled i)
    | queue => exact congrArg (fun cb : Clbuf Nat => (cb.stored : Multiset Nat)) unmoved.queue
    | held j => exact congrArg _ (unmoved.held j)
    | freed => exact congrArg _ unmoved.freed
  have hpushed : next.memory.pushed = s.memory.pushed := congrArg (List.map Prod.snd) unmoved.pushes
  constructor
  · rw [unmoved.queue]
    exact accounted.stores
  · rw [hholds, unmoved.inserts]
    exact accounted.total
  · rw [hpushed, unmoved.popped, unmoved.queue]
    exact accounted.order
  · rw [hpushed]
    exact accounted.pushedOnce
  · rw [unmoved.popped, unmoved.freed]
    intro insert hinsert
    refine (accounted.popped insert hinsert).imp_left ?_
    rintro ⟨j, hheld⟩
    exact ⟨j, (unmoved.held j).symm ▸ hheld⟩
  · exact hrefused

theorem range_add (count more : Nat) :
    Multiset.range (count + more) =
      Multiset.range count + (List.range' count more : Multiset Nat) := by
  rw [← Multiset.coe_range, ← Multiset.coe_range, Multiset.coe_add, List.range_eq_range',
    List.range_eq_range', ← List.range'_append_1, Nat.zero_add]

theorem coe_append_single (items : List Nat) (item : Nat) :
    ((items ++ [item] : List Nat) : Multiset Nat) = item ::ₘ (items : Multiset Nat) := by
  rw [← Multiset.coe_add, Multiset.add_comm]
  rfl

/-- The places that the step of a poller leaves alone. -/
theorem holds_of_poller {i : Fin n} {queries : Queries} {memory : Memory n m} {place : Place n m}
    (hplace : place ≠ .unhandled i)
    (hqueue : place = .queue → memory.queue.stored = s.memory.queue.stored)
    (hfreed : place = .freed → memory.freed = s.memory.freed) :
    State.holds { s with memory := memory, pollers := Function.update s.pollers i queries } place =
      s.holds place := by
  cases place with
  | unhandled k =>
      have hki : k ≠ i := fun heq => hplace (heq ▸ rfl)
      exact congrArg (fun queries : Queries => (queries.unhandled : Multiset Nat))
        (Function.update_of_ne hki _ _)
  | queue => exact congrArg _ (hqueue rfl)
  | held j => rfl
  | freed => exact congrArg _ (hfreed rfl)

/-- The places that the step of a database thread leaves alone. -/
theorem holds_of_database {j : Fin m} {draining : Draining} {memory : Memory n m}
    {place : Place n m} (hplace : place ≠ .held j)
    (hqueue : place = .queue → memory.queue.stored = s.memory.queue.stored)
    (hfreed : place = .freed → memory.freed = s.memory.freed) :
    State.holds { s with memory := memory, databases := Function.update s.databases j draining }
        place =
      s.holds place := by
  cases place with
  | unhandled i => rfl
  | queue => exact congrArg _ (hqueue rfl)
  | held k =>
      have hkj : k ≠ j := fun heq => hplace (heq ▸ rfl)
      exact congrArg (fun draining : Draining => (draining.held : Multiset Nat))
        (Function.update_of_ne hkj _ _)
  | freed => exact congrArg _ (hfreed rfl)

theorem holds_unhandled {i : Fin n} {queries : Queries} {memory : Memory n m} :
    State.holds { s with memory := memory, pollers := Function.update s.pollers i queries }
        (.unhandled i) = queries.unhandled :=
  congrArg (fun queries : Queries => (queries.unhandled : Multiset Nat)) (Function.update_self ..)

theorem holds_held {j : Fin m} {draining : Draining} {memory : Memory n m} :
    State.holds { s with memory := memory, databases := Function.update s.databases j draining }
        (.held j) = draining.held :=
  congrArg (fun draining : Draining => (draining.held : Multiset Nat)) (Function.update_self ..)

/-- The views of the history that an event leaves alone. -/
theorem filterMap_record_none {β : Type} {event : Event n m} {view : Event n m → Option β}
    (memory : Memory n m) (hview : view event = none) :
    (memory.record event).history.filterMap view = memory.history.filterMap view := by
  rw [filterMap_record, hview]
  exact List.append_nil _

/-- A poller begins with a list of new inserts. -/
theorem Accounted.begins {i : Fin n} {hostQueries : Inserts} {memory : Memory n m}
    {queries : Queries} (accounted : Accounted s) (hpc : (s.pollers i).pc = .idle)
    (hbegin : beginQueries s.memory hostQueries = .ok (memory, queries)) :
    Accounted { s with memory := memory, pollers := Function.update s.pollers i queries } := by
  obtain ⟨inserts, rfl, hunhandled, hrefusing, -⟩ := beginQueries_ok hbegin
  have hidle : (s.pollers i).unhandled = [] ∧ (s.pollers i).refusing = [] := by
    rw [Queries.unhandled, Queries.refusing, hpc]
    exact ⟨rfl, rfl⟩
  have gains : Holdings.Gains s.holds
      (State.holds { s with
        memory := { s.memory with inserts := s.memory.inserts ++ inserts }
        pollers := Function.update s.pollers i queries })
      (.unhandled i) (List.range' s.memory.inserts.length inserts.length) := by
    constructor
    · rw [holds_unhandled, hunhandled, State.holds, hidle.1]
      rfl
    · exact fun place hplace => holds_of_poller hplace (fun _ => rfl) (fun _ => rfl)
  constructor
  · exact accounted.stores
  · rw [gains.total_eq, accounted.total, ← range_add]
    exact congrArg Multiset.range List.length_append.symm
  · exact accounted.order
  · exact accounted.pushedOnce
  · exact accounted.popped
  · intro k
    rw [update_same Queries.refusing (hrefusing.trans hidle.2.symm) k]
    exact accounted.refused k

/-- A push that is accepted stores the insert behind the others. -/
theorem Accounted.push_stores {insert : Nat} {queue : Clbuf Nat} (accounted : Accounted s)
    (hpush : clbufPush s.memory.queue (some insert) = (some insert, queue)) :
    queue.Stores (s.memory.queue.stored ++ [insert]) := by
  rcases Nat.lt_or_eq_of_le accounted.stores.fits with hroom | hfull
  · have hafter := (Clbuf.push_room accounted.stores hroom insert).2
    rwa [hpush] at hafter
  · rw [Clbuf.push_full accounted.stores hfull insert] at hpush
    cases hpush

theorem Accounted.pushes {i : Fin n} {insert : Nat} {queue : Clbuf Nat} {queries : Queries}
    (accounted : Accounted s)
    (hpush : clbufPush s.memory.queue (some insert) = (some insert, queue))
    (hunhandled : (s.pollers i).unhandled = insert :: queries.unhandled)
    (hrefusing : queries.refusing = (s.pollers i).refusing) :
    Accounted { s with
      memory := { s.memory with queue := queue }.record (.pushed i insert)
      pollers := Function.update s.pollers i queries } := by
  have hstores := accounted.push_stores hpush
  have hstored := hstores.stored_eq
  have hnew : insert ∉ s.memory.pushed :=
    accounted.not_pushed (i := i) (hunhandled ▸ List.mem_cons_self)
  have passes : Holdings.Passes s.holds
      (State.holds { s with
        memory := { s.memory with queue := queue }.record (.pushed i insert)
        pollers := Function.update s.pollers i queries })
      (.unhandled i) .queue insert := by
    constructor
    · nofun
    · rw [holds_unhandled, State.holds, hunhandled]
      rfl
    · exact (congrArg _ hstored).trans (coe_append_single _ _)
    · exact fun place hsource htarget => holds_of_poller hsource
        (fun heq => absurd heq htarget) (fun _ => filterMap_record_none _ rfl)
  have hpushed : Memory.pushed ({ s.memory with queue := queue }.record (.pushed i insert)) =
      s.memory.pushed ++ [insert] := by
    rw [Memory.pushed, Memory.pushes, filterMap_record, List.map_append]
    rfl
  constructor
  · change queue.Stores queue.stored
    rw [hstored]
    exact hstores
  · rw [passes.total_eq]
    exact accounted.total
  · rw [hpushed, accounted.order, List.append_assoc]
    exact congrArg₂ (· ++ ·) (filterMap_record_none _ rfl).symm hstored.symm
  · rw [hpushed]
    exact accounted.pushedOnce.append (List.nodup_singleton _)
      (List.disjoint_singleton.mpr hnew)
  · rw [Memory.popped, Memory.freed, filterMap_record_none _ rfl, filterMap_record_none _ rfl]
    exact accounted.popped
  · intro k
    rw [update_same Queries.refusing hrefusing k, Memory.refusedBy, Memory.freedBy,
      Memory.refusals, Memory.pollerFrees, filterMap_record_none _ rfl,
      filterMap_record_none _ rfl]
    exact accounted.refused k

/-- Refusals and frees of other pollers, and an event that is neither. -/
theorem Accounted.refused_record {event : Event n m} {memory : Memory n m}
    (accounted : Accounted s) (hmemory : memory.history = s.memory.history)
    (hrefusal : event.refusal = none) (hfree : event.pollerFree = none) (k : Fin n) :
    (memory.record event).refusedBy k =
      (memory.record event).freedBy k ++ (s.pollers k).refusing := by
  rw [Memory.refusedBy, Memory.freedBy, Memory.refusals, Memory.pollerFrees,
    filterMap_record_none _ hrefusal, filterMap_record_none _ hfree, hmemory]
  exact accounted.refused k

theorem Accounted.refuses {i : Fin n} {insert : Nat} {queries : Queries}
    (accounted : Accounted s) (hunhandled : queries.unhandled = (s.pollers i).unhandled)
    (hrefusing : (s.pollers i).refusing = [] ∧ queries.refusing = [insert]) :
    Accounted { s with
      memory := s.memory.record (.refused i insert)
      pollers := Function.update s.pollers i queries } := by
  refine accounted.unmoved ?_ fun k => ?_
  · exact
      { queue := rfl
        inserts := rfl
        pushes := filterMap_record_none _ rfl
        popped := filterMap_record_none _ rfl
        freed := filterMap_record_none _ rfl
        unhandled := update_same Queries.unhandled hunhandled
        held := fun _ => rfl }
  · have hrefused := accounted.refused k
    rw [Memory.refusedBy, Memory.freedBy, Memory.refusals, Memory.pollerFrees, filterMap_record,
      filterMap_record_none _ rfl]
    change byPoller k (s.memory.refusals ++ [(i, insert)]) =
      s.memory.freedBy k ++ (Function.update s.pollers i queries k).refusing
    rw [byPoller_append, byPoller_single]
    change s.memory.refusedBy k ++ _ = _
    by_cases hik : i = k
    · subst hik
      rw [if_pos rfl, Function.update_self, hrefused, hrefusing.1, hrefusing.2, List.append_nil]
    · rw [if_neg hik, Function.update_of_ne (Ne.symm hik), List.append_nil]
      exact hrefused

/-- An event with which an insert is freed, and nothing pushed or popped. -/
theorem Accounted.freed {event : Event n m} {place : Place n m} {insert : Nat}
    (accounted : Accounted s) (hmemory : next.memory = s.memory.record event)
    (hpush : event.push = none) (hpop : event.pop = none)
    (passes : Holdings.Passes s.holds next.holds place .freed insert)
    (hpopped : ∀ other ∈ s.memory.popped,
      (∃ j, other ∈ (next.databases j).held) ∨ other ∈ next.memory.freed)
    (hrefused : ∀ k, next.memory.refusedBy k =
      next.memory.freedBy k ++ (next.pollers k).refusing) : Accounted next := by
  have hsamePushed : next.memory.pushed = s.memory.pushed := by
    rw [hmemory, Memory.pushed, Memory.pushes, filterMap_record_none _ hpush]
    rfl
  have hsamePopped : next.memory.popped = s.memory.popped := by
    rw [hmemory, Memory.popped, filterMap_record_none _ hpop]
    rfl
  constructor
  · rw [hmemory]
    exact accounted.stores
  · rw [passes.total_eq, hmemory]
    exact accounted.total
  · rw [hsamePushed, hsamePopped, hmemory]
    exact accounted.order
  · rw [hsamePushed]
    exact accounted.pushedOnce
  · rw [hsamePopped]
    exact hpopped
  · exact hrefused

theorem Accounted.frees {i : Fin n} {insert : Nat} {queries : Queries}
    (accounted : Accounted s)
    (hunhandled : (s.pollers i).unhandled = insert :: queries.unhandled)
    (hrefusing : (s.pollers i).refusing = [insert] ∧ queries.refusing = []) :
    Accounted { s with
      memory := s.memory.record (.freedByPoller i insert)
      pollers := Function.update s.pollers i queries } := by
  have hfreed : Memory.freed (s.memory.record (.freedByPoller i insert)) =
      s.memory.freed ++ [insert] := filterMap_record _ _ _
  have passes : Holdings.Passes s.holds
      (State.holds { s with
        memory := s.memory.record (.freedByPoller i insert)
        pollers := Function.update s.pollers i queries })
      (.unhandled i) .freed insert := by
    constructor
    · nofun
    · rw [holds_unhandled, State.holds, hunhandled]
      rfl
    · exact (congrArg _ hfreed).trans (coe_append_single _ _)
    · exact fun place hsource htarget => holds_of_poller hsource (fun _ => rfl)
        (fun heq => absurd heq htarget)
  refine accounted.freed rfl rfl rfl passes ?_ ?_
  · rw [hfreed]
    exact fun other hother => (accounted.popped other hother).imp_right
      (List.mem_append_left [insert])
  · intro k
    have hrefused := accounted.refused k
    rw [Memory.refusedBy, Memory.freedBy, Memory.refusals, Memory.pollerFrees,
      filterMap_record_none _ rfl, filterMap_record]
    change s.memory.refusedBy k = byPoller k (s.memory.pollerFrees ++ [(i, insert)]) ++
      (Function.update s.pollers i queries k).refusing
    rw [byPoller_append, byPoller_single, hrefused]
    change _ = s.memory.freedBy k ++ _ ++ _
    by_cases hik : i = k
    · subst hik
      rw [if_pos rfl, Function.update_self, hrefusing.1, hrefusing.2, List.append_nil]
    · rw [if_neg hik, Function.update_of_ne (Ne.symm hik), List.append_nil]

theorem Accounted.pops {j : Fin m} {insert : Nat} {queue : Clbuf Nat} {draining : Draining}
    (accounted : Accounted s) (hpop : clbufPop s.memory.queue = (some insert, queue))
    (hheld : (s.databases j).held = [] ∧ draining.held = [insert]) :
    Accounted { s with
      memory := { s.memory with queue := queue }.record (.popped j insert)
      databases := Function.update s.databases j draining } := by
  obtain ⟨rest, hitems, hstores⟩ : ∃ rest, s.memory.queue.stored = insert :: rest ∧
      queue.Stores rest := accounted.stores.pop_some hpop
  have hstored := hstores.stored_eq
  have passes : Holdings.Passes s.holds
      (State.holds { s with
        memory := { s.memory with queue := queue }.record (.popped j insert)
        databases := Function.update s.databases j draining })
      .queue (.held j) insert := by
    constructor
    · nofun
    · change (s.memory.queue.stored : Multiset Nat) = insert ::ₘ (queue.stored : Multiset Nat)
      rw [hitems, hstored]
      rfl
    · rw [holds_held, State.holds, hheld.1, hheld.2]
      rfl
    · exact fun place hsource htarget => holds_of_database htarget
        (fun heq => absurd heq hsource) (fun _ => filterMap_record_none _ rfl)
  have hpopped : Memory.popped ({ s.memory with queue := queue }.record (.popped j insert)) =
      s.memory.popped ++ [insert] := filterMap_record _ _ _
  constructor
  · change queue.Stores queue.stored
    rw [hstored]
    exact hstores
  · rw [passes.total_eq]
    exact accounted.total
  · rw [Memory.pushed, Memory.pushes, filterMap_record_none _ rfl, hpopped]
    change s.memory.pushed = _ ++ queue.stored
    rw [accounted.order, hitems, hstored, List.append_assoc]
    rfl
  · rw [Memory.pushed, Memory.pushes, filterMap_record_none _ rfl]
    exact accounted.pushedOnce
  · rw [hpopped, Memory.freed, filterMap_record_none _ rfl]
    intro other hother
    rcases List.mem_append.mp hother with hbefore | hnew
    · refine (accounted.popped other hbefore).imp_left fun hholds => ?_
      refine (exists_update Draining.held hholds).resolve_left ?_
      rw [hheld.1]
      exact List.not_mem_nil
    · refine Or.inl (exists_update_self Draining.held ?_)
      rw [hheld.2]
      exact hnew
  · exact accounted.refused_record rfl rfl rfl

theorem Accounted.databaseFrees {j : Fin m} {insert : Nat} {draining : Draining}
    (accounted : Accounted s)
    (hheld : (s.databases j).held = [insert] ∧ draining.held = []) :
    Accounted { s with
      memory := s.memory.record (.freedByDatabase j insert)
      databases := Function.update s.databases j draining } := by
  have hfreed : Memory.freed (s.memory.record (.freedByDatabase j insert)) =
      s.memory.freed ++ [insert] := filterMap_record _ _ _
  have passes : Holdings.Passes s.holds
      (State.holds { s with
        memory := s.memory.record (.freedByDatabase j insert)
        databases := Function.update s.databases j draining })
      (.held j) .freed insert := by
    constructor
    · nofun
    · rw [holds_held, State.holds, hheld.1, hheld.2]
      rfl
    · exact (congrArg _ hfreed).trans (coe_append_single _ _)
    · exact fun place hsource htarget => holds_of_database hsource (fun _ => rfl)
        (fun heq => absurd heq htarget)
  refine accounted.freed rfl rfl rfl passes ?_ (accounted.refused_record rfl rfl rfl)
  rw [hfreed]
  intro other hother
  rcases accounted.popped other hother with hholds | hbefore
  · rcases exists_update Draining.held hholds with hmine | hothers
    · rw [hheld.1] at hmine
      exact Or.inr (List.mem_append_right _ hmine)
    · exact Or.inl hothers
  · exact Or.inr (List.mem_append_left _ hbefore)

/-- A step of a poller that moves no insert. -/
theorem Accounted.polls_unmoved {i : Fin n} {queries : Queries} {memory : Memory n m}
    (accounted : Accounted s)
    (hmemory : memory = s.memory ∨ ∃ insert, memory = s.memory.record (.staleRead i insert))
    (hunhandled : queries.unhandled = (s.pollers i).unhandled)
    (hrefusing : queries.refusing = (s.pollers i).refusing) :
    Accounted { s with memory := memory, pollers := Function.update s.pollers i queries } := by
  rcases hmemory with rfl | ⟨insert, rfl⟩
  · refine accounted.unmoved ⟨rfl, rfl, rfl, rfl, rfl, update_same Queries.unhandled hunhandled,
      fun _ => rfl⟩ fun k => ?_
    rw [update_same Queries.refusing hrefusing k]
    exact accounted.refused k
  · refine accounted.unmoved ⟨rfl, rfl, filterMap_record_none _ rfl, filterMap_record_none _ rfl,
      filterMap_record_none _ rfl, update_same Queries.unhandled hunhandled, fun _ => rfl⟩
      fun k => ?_
    rw [update_same Queries.refusing hrefusing k]
    exact accounted.refused_record rfl rfl rfl k

/-- A step of a database thread that moves no insert. -/
theorem Accounted.answers_unmoved {j : Fin m} {draining : Draining} {event : Event n m}
    (accounted : Accounted s) (hpush : event.push = none) (hpop : event.pop = none)
    (hfree : event.free = none) (hrefusal : event.refusal = none)
    (hpollerFree : event.pollerFree = none) (hheld : draining.held = (s.databases j).held) :
    Accounted { s with
      memory := s.memory.record event
      databases := Function.update s.databases j draining } :=
  accounted.unmoved ⟨rfl, rfl, filterMap_record_none _ hpush, filterMap_record_none _ hpop,
    filterMap_record_none _ hfree, fun _ => rfl, update_same Draining.held hheld⟩
    (accounted.refused_record rfl hrefusal hpollerFree)

theorem Accounted.polls {i : Fin n} {garbage : UInt32} {memory : Memory n m} {queries : Queries}
    (accounted : Accounted s)
    (effect : QueriesEffect i garbage s.memory memory (s.pollers i) queries) :
    Accounted { s with memory := memory, pollers := Function.update s.pollers i queries } := by
  cases effect with
  | moves hmemory hunhandled hrefusing =>
      exact accounted.polls_unmoved (Or.inl hmemory) hunhandled hrefusing
  | pushes insert queue hpush hmemory hunhandled hrefusing =>
      subst hmemory
      exact accounted.pushes hpush hunhandled hrefusing
  | refuses insert hmemory hunhandled hrefusing =>
      subst hmemory
      exact accounted.refuses hunhandled hrefusing
  | reads insert _ hmemory hunhandled hrefusing =>
      exact accounted.polls_unmoved (Or.inl hmemory) hunhandled hrefusing
  | readsStale insert _ hmemory hunhandled hrefusing =>
      exact accounted.polls_unmoved (Or.inr ⟨insert, hmemory⟩) hunhandled hrefusing
  | frees insert hmemory hunhandled hrefusing =>
      subst hmemory
      exact accounted.frees hunhandled hrefusing

theorem Accounted.answers {j : Fin m} {succeeds : Bool} {memory : Memory n m}
    {draining : Draining} (accounted : Accounted s)
    (effect : DrainingEffect j succeeds s.memory memory (s.databases j) draining) :
    Accounted { s with
      memory := memory
      databases := Function.update s.databases j draining } := by
  have silent : ∀ after : Memory n m, after.queue = s.memory.queue →
      after.inserts = s.memory.inserts → after.history = s.memory.history →
      draining.held = (s.databases j).held →
      Accounted { s with
        memory := after
        databases := Function.update s.databases j draining } := by
    intro after hqueue hinserts hhistory hheld
    refine accounted.unmoved ⟨hqueue, hinserts, congrArg (List.filterMap Event.push) hhistory,
      congrArg (List.filterMap Event.pop) hhistory, congrArg (List.filterMap Event.free) hhistory,
      fun _ => rfl, update_same Draining.held hheld⟩ fun k => ?_
    rw [Memory.refusedBy, Memory.freedBy, Memory.refusals, Memory.pollerFrees, hhistory]
    exact accounted.refused k
  cases effect with
  | moves hmemory hheld =>
      rcases hmemory with rfl | rfl
      · exact silent s.memory rfl rfl rfl hheld
      · exact accounted.answers_unmoved rfl rfl rfl rfl rfl hheld
  | pops insert queue hpop hmemory hheld =>
      subst hmemory
      exact accounted.pops hpop hheld
  | popsNothing queue hpop hmemory hheld =>
      subst hmemory
      obtain ⟨-, rfl⟩ := accounted.stores.pop_none hpop
      exact silent s.memory rfl rfl rfl hheld
  | answers insert event hevent hmemory hheld =>
      subst hmemory
      rcases hevent with rfl | ⟨succeeded, rfl, -⟩
      · exact accounted.answers_unmoved rfl rfl rfl rfl rfl hheld
      · exact accounted.answers_unmoved rfl rfl rfl rfl rfl hheld
  | fails fault hmemory hsame =>
      subst hmemory hsame
      exact silent (s.memory.fail fault) rfl rfl rfl rfl
  | frees insert hmemory hpc hheld =>
      subst hmemory
      refine accounted.databaseFrees ⟨?_, hheld⟩
      rw [Draining.held, hpc]

theorem Accounted.step {config : Rtgconf} {label : Label n m} (accounted : Accounted s)
    (hstep : step config label s = some next) : Accounted next := by
  cases step_effect hstep with
  | begins i hostQueries memory queries hpc hbegin hnext =>
      subst hnext
      exact accounted.begins hpc hbegin
  | beginFails i hostQueries fault hnext =>
      subst hnext
      exact accounted.unmoved ⟨rfl, rfl, rfl, rfl, rfl, fun _ => rfl, fun _ => rfl⟩
        accounted.refused
  | polls i garbage memory queries effect hnext =>
      subst hnext
      exact accounted.polls effect
  | drains j useDb hpc hnext =>
      subst hnext
      have hheld : (Draining.begin useDb).held = (s.databases j).held := by
        rw [Draining.held, Draining.held, hpc]
        rfl
      exact accounted.unmoved ⟨rfl, rfl, rfl, rfl, rfl, fun _ => rfl,
        update_same Draining.held hheld⟩ accounted.refused
  | answers j succeeds memory draining effect hnext =>
      subst hnext
      exact accounted.answers effect

end Steps

/-! ## All runs -/

theorem accounted_start (size : UInt32) (hsize : 0 < size.toNat) :
    Accounted (State.start size hsize : State n m) := by
  have hstores : (clbufCreate Nat size hsize).Stores [] := Clbuf.stores_create size hsize
  have hstored := hstores.stored_eq
  constructor
  · change (clbufCreate Nat size hsize).Stores (clbufCreate Nat size hsize).stored
    rw [hstored]
    exact hstores
  · refine Finset.sum_eq_zero fun place _ => ?_
    cases place with
    | unhandled i => rfl
    | queue => exact congrArg _ hstored
    | held j => rfl
    | freed => rfl
  · exact hstored.symm
  · exact List.nodup_nil
  · exact nofun
  · exact fun _ => rfl

theorem accounted_keeps (config : Rtgconf) :
    Transition.Keeps (step config) (fun _ _ => True) (Accounted (n := n) (m := m)) :=
  fun _ _ _ _ accounted hstep => accounted.step hstep

/-- In any interleaving of any number of pollers and database threads, no insert
is lost, doubled, freed twice or overtaken by a later one of its poller. -/
theorem inserts_accounted {config : Rtgconf} {size : UInt32} (hsize : 0 < size.toNat)
    {labels : List (Label n m)} {final : State n m}
    (hrun : Transition.run (step config) labels (State.start size hsize) = some final) :
    InsertsAccounted final :=
  ((accounted_keeps config).run (Transition.guarded_of_labels (fun _ _ _ => trivial) _)
    (accounted_start size hsize) hrun).insertsAccounted

/-- An insert with one value, which did not change. -/
def quietInsert : Clinsert where
  table := some (CString.ofString "ifOutDiscards")
  values := [{ id := 1, counter := 0, rate := 0, dtime := 1300000000, currvalue := 0 }]
  allocatedSpace := 8

def quietInserts (count : Nat) : Inserts :=
  List.replicate count (some quietInsert) ++ List.replicate (maxTables - count) none

def onlyThread : Fin 1 := Fin.last 0

/-- A poller has two inserts for a queue with one slot, and a database thread
drains the queue. -/
def roomForOne : List (Label 1 1) :=
  [.begin onlyThread (quietInserts 2)] ++ List.replicate 7 (.poller onlyThread 0) ++
    [.drain onlyThread true] ++ List.replicate 4 (.database onlyThread true)

theorem inserts_accounted_roomForOne :
    ∃ final, Transition.run (step defaultRtgconf) roomForOne
        (State.start 1 (by decide)) = some final ∧
      final.memory.popped = [0] ∧ final.memory.freed = [1, 0] ∧ InsertsAccounted final :=
  ⟨_, rfl, rfl, rfl, inserts_accounted (by decide) (rfl :
    Transition.run (step defaultRtgconf) roomForOne (State.start 1 (by decide)) = some _)⟩

end Accounts

end ClusteredPoller.Handover
