import ClusteredPoller.Poller.Attempts
import ClusteredPoller.Poller.Slots
import Mathlib.Data.List.TakeWhile

/-!
# What a poll does

A poll of a host with few tables returns, and what it returns and changes is
known: which rows were queried, what they have cached, and one insert for each
table with the accepted samples of that table.
-/

namespace ClusteredPoller.Poller

open Library
open Library.Grouping (having distinctKeys grouped grouped_eq_distinctKeys length_grouped_eq_card)
open Library.Outcome

/-- Every row names a table.  An only row may leave it out, because there is no
other to compare it with. -/
def NamesTables (rows : List Queryrow) : Prop :=
  1 < rows.length → ∀ row ∈ rows, row.table.isSome

/-- The rows name their tables, and there are no more tables than slots. -/
structure FewTables (host : Queryhost) : Prop where
  named : NamesTables host.rows
  few : (host.rows.map Queryrow.table).toFinset.card ≤ maxTables

/-- No counter row answers at exactly its cached time. -/
def NoSameTime (host : Queryhost) (replies : Nat → Reply) : Prop :=
  ∀ number row, host.rows[number]? = some row → row.bits ≠ 0 →
    ∀ sample ∈ replies number, sample.dtime ≠ row.cachedTime

/-! ## The inserts -/

/-- One insert for each table, in the order of the first accepted samples, with
the accepted samples of the table in row order; the other slots are empty. -/
def clustered (samples : List Push) : List (Option (Option CString × List ClinsertValue)) :=
  let tables := distinctKeys Prod.fst samples
  tables.map (fun table => some (table, (having Prod.fst table samples).map Prod.snd)) ++
    List.replicate (maxTables - tables.length) none

theorem slotsOf_grouped (samples : List Push) :
    slotsOf (grouped Prod.fst samples) (maxTables - (grouped Prod.fst samples).length) =
      clustered samples := by
  have hgroups := @grouped_eq_distinctKeys Push _ _ Prod.fst samples
  have hlength : (grouped Prod.fst samples).length = (distinctKeys Prod.fst samples).length := by
    simpa using congrArg List.length hgroups
  have hinserts := congrArg (List.map fun group : Option CString × List Push =>
    some (group.1, group.2.map Prod.snd)) hgroups
  rw [List.map_map, List.map_map] at hinserts
  rw [slotsOf, hlength]
  exact congrArg (· ++ _) hinserts

/-! ## A poll that returns -/

section Returns

variable {Handle : Type} {sessOpen : SessOpen Handle} {replies : Nat → Reply} {host : Queryhost}
  {session : ClsnmpSession Handle} {maxErrors : UInt32}

theorem passes_noExit (hsame : NoSameTime host replies) :
    ∀ attempt ∈ passes maxErrors replies host.rows, attempt.exits = false := by
  intro attempt hattempt
  obtain ⟨hrow, hreply⟩ := mem_passes hattempt
  unfold Attempt.exits
  cases hsample : attempt.reply with
  | none => rfl
  | some sample =>
      refine decide_eq_false fun hexits => ?_
      exact hsame attempt.number attempt.row hrow hexits.2.1 sample (hreply ▸ hsample) hexits.2.2

theorem beforeExit_eq {made : List Attempt} (hruns : ∀ attempt ∈ made, attempt.exits = false) :
    beforeExit made = made := by
  refine List.takeWhile_eq_self_iff.mpr fun attempt hattempt => ?_
  rw [hruns attempt hattempt]
  rfl

/-- The poll returns, and its inserts hold the groups of the accepted samples. -/
theorem getClinserts_returns
    (hsession : clsnmpSessionCreate sessOpen host.host host.community host.snmpver =
      .ok (some session)) (fewTables : FewTables host) (hsame : NoSameTime host replies) :
    ∃ inserts,
      getClinserts sessOpen replies host maxErrors =
        .ok (polledOf host (passes maxErrors replies host.rows) inserts) ∧
      inserts.map (Option.map Clinsert.contents) =
        clustered (accepted (passes maxErrors replies host.rows)) := by
  have hruns := @passes_noExit replies host maxErrors hsame
  have hbefore := beforeExit_eq hruns
  have hnamed : 1 < (accepted (passes maxErrors replies host.rows)).length →
      ∀ push ∈ accepted (passes maxErrors replies host.rows), push.1.isSome := by
    intro hmore push hpush
    have hfewer := length_accepted maxErrors replies host.rows
    rw [← hbefore] at hpush
    obtain ⟨row, hrow, htable⟩ := table_of_accepted hpush
    exact htable ▸ fewTables.named (Nat.lt_of_lt_of_le hmore hfewer) row hrow
  have hfew : (grouped Prod.fst (accepted (passes maxErrors replies host.rows))).length ≤
      maxTables := by
    rw [length_grouped_eq_card]
    refine Nat.le_trans (Finset.card_le_card fun table htable => ?_) fewTables.few
    obtain ⟨push, hpush, rfl⟩ := List.mem_map.mp (List.mem_toFinset.mp htable)
    rw [← hbefore] at hpush
    obtain ⟨row, hrow, htable⟩ := table_of_accepted hpush
    exact List.mem_toFinset.mpr (List.mem_map.mpr ⟨row, hrow, htable⟩)
  obtain ⟨inserts, hstored, hslots⟩ := storeAll_slots hnamed hfew
  have hany : ¬ (passes maxErrors replies host.rows).any Attempt.exits = true := by
    rw [List.any_eq_true]
    rintro ⟨attempt, hattempt, hexits⟩
    rw [hruns attempt hattempt] at hexits
    cases hexits
  refine ⟨inserts, ?_, ?_⟩
  · rw [getClinserts_eq hsession]
    dsimp only
    rw [hbefore, hstored, ok_bind, if_neg hany]
    rfl
  · rw [hslots]
    exact slotsOf_grouped _

end Returns

/-- Whatever the replies and the maximal number of errors, the inserts are the
accepted samples of the queried rows, clustered by table. -/
theorem inserts_clustered {Handle : Type} {sessOpen : SessOpen Handle} {host : Queryhost}
    {session : ClsnmpSession Handle}
    (hsession : clsnmpSessionCreate sessOpen host.host host.community host.snmpver =
      .ok (some session)) {replies : Nat → Reply} (fewTables : FewTables host)
    (hsame : NoSameTime host replies) (maxErrors : UInt32) :
    ∃ polled, getClinserts sessOpen replies host maxErrors = .ok polled ∧
      polled.inserts.map (Option.map Clinsert.contents) =
        clustered (accepted (passes maxErrors replies host.rows)) := by
  obtain ⟨inserts, hpoll, hslots⟩ :=
    @getClinserts_returns Handle sessOpen replies host session maxErrors hsession fewTables hsame
  exact ⟨_, hpoll, hslots⟩

/-- A port that has been read at 100 octets. -/
def portRow (id : UInt32) (table : CString) : Queryrow where
  oid := some (CString.ofString ".1.3.6.1.2.1.2.2.1.16.52")
  table := some table
  id := id
  bits := 32
  speed := 1250
  cachedCounter := 100
  cachedTime := 300

def octetsIn : CString := CString.ofString "ifInOctets_52"

def octetsOut : CString := CString.ofString "ifOutOctets_52"

def portHost : Queryhost :=
  { singleHost (portRow 521 octetsIn) with
    rows := [portRow 521 octetsIn, portRow 522 octetsOut, portRow 523 octetsIn] }

/-- A value that says that the port has moved 600 octets in 300 seconds. -/
def portValue (id : UInt32) : ClinsertValue := ⟨id, 600, 2, 600, 700⟩

theorem portHost_fewTables : FewTables portHost where
  named := by
    intro _ row hrow
    simp only [portHost, List.mem_cons, List.not_mem_nil, or_false] at hrow
    rcases hrow with rfl | rfl | rfl <;> rfl
  few := by decide

theorem portHost_noSameTime (replies : Nat → Reply) (hreplies : ∀ number, ∀ sample ∈ replies number,
    sample.dtime = 600) : NoSameTime portHost replies := by
  intro number row hrow _ sample hsample heq
  have hmember := List.mem_of_getElem? hrow
  simp only [portHost, List.mem_cons, List.not_mem_nil, or_false] at hmember
  rw [hreplies number sample hsample] at heq
  rcases hmember with rfl | rfl | rfl <;> cases heq

/-- The first and the third port share a table. -/
theorem inserts_clustered_portHost :
    ∃ polled, getClinserts (fun _ _ _ => some ()) (answers 700 600) portHost 3 = .ok polled ∧
      polled.inserts.map (Option.map Clinsert.contents) =
        some (some octetsIn, [portValue 521, portValue 523]) ::
          some (some octetsOut, [portValue 522]) :: List.replicate 62 none := by
  refine @inserts_clustered Unit (fun _ _ _ => some ()) portHost _ rfl (answers 700 600)
    portHost_fewTables (portHost_noSameTime _ fun number sample hsample => ?_) 3
  cases hsample
  rfl

/-! ## The queries and the caches -/

/-- A get, with its reply. -/
def Event.query : Event → Option (Nat × Reply)
  | .got row sample => some (row, some sample)
  | .failed row => some (row, none)
  | .pushed _ _ _ => none

/-- The gets that were made, in order. -/
def queriesOf (history : List Event) : List (Nat × Reply) := history.filterMap Event.query

theorem queriesOf_events (attempt : Attempt) :
    queriesOf attempt.events = [(attempt.number, attempt.reply)] := by
  obtain ⟨number, row, reply⟩ := attempt
  cases reply with
  | none => rfl
  | some sample =>
      unfold Attempt.events
      cases Attempt.value ⟨number, row, some sample⟩ <;> rfl

theorem queriesOf_flatMap (made : List Attempt) :
    queriesOf (made.flatMap Attempt.events) =
      made.map fun attempt => (attempt.number, attempt.reply) := by
  induction made with
  | nil => rfl
  | cons attempt made ih =>
      have hfirst := queriesOf_events attempt
      unfold queriesOf at hfirst ih ⊢
      rw [List.flatMap_cons, List.filterMap_append, hfirst, ih]
      rfl

/-- The rows behind the passes: each queried row with what its reply makes of it,
and the others as they were. -/
theorem polledOf_row {maxErrors : UInt32} {replies : Nat → Reply} {host : Queryhost}
    {inserts : Inserts} {number : Nat} {row : Queryrow} (hrow : host.rows[number]? = some row) :
    (polledOf host (passes maxErrors replies host.rows) inserts).host.rows[number]? =
      some (if number < (passes maxErrors replies host.rows).length
        then row.afterReply (replies number) else row) := by
  dsimp only [polledOf]
  by_cases hqueried : number < (passes maxErrors replies host.rows).length
  · rw [if_pos hqueried, List.getElem?_append_left (by rwa [List.length_map]), List.getElem?_map,
      getElem?_passes hqueried, hrow]
    rfl
  · have hbehind := Nat.le_of_not_lt hqueried
    rw [if_neg hqueried, List.getElem?_append_right (by rwa [List.length_map]), List.length_map,
      List.getElem?_drop, Nat.add_sub_cancel' hbehind, hrow]

/-- The poll queried exactly the rows of the shortest prefix with the maximal
number of failures, or all rows if there are fewer failures.  A queried row that
answered has cached its answer, the other rows are as they were, and the
statistics grow by the numbers of gets that failed and that succeeded. -/
structure CutsOff (host : Queryhost) (replies : Nat → Reply) (maxErrors : UInt32)
    (polled : Polled) (made : List Attempt) : Prop where
  cut : CutOff.IsCut Attempt.failed maxErrors.toNat (attemptsFrom replies 0 host.rows) made
  queries : queriesOf polled.history = made.map fun attempt => (attempt.number, attempt.reply)
  frame : polled.host = { host with rows := polled.host.rows }
  rows : polled.host.rows.length = host.rows.length
  answered : ∀ number row sample, number < made.length → host.rows[number]? = some row →
    replies number = some sample →
      polled.host.rows[number]? =
        some { row with cachedTime := sample.dtime, cachedCounter := sample.counter }
  unanswered : ∀ number row, host.rows[number]? = some row →
    (number < made.length → replies number = none) → polled.host.rows[number]? = some row
  failures : host.rows.length < 2 ^ 32 → polled.snmpFail.toNat = made.countP Attempt.failed
  successes : host.rows.length < 2 ^ 32 →
    polled.snmpSuccess.toNat = made.countP fun attempt => !attempt.failed

theorem cut_off_and_frame {Handle : Type} {sessOpen : SessOpen Handle} {host : Queryhost}
    {session : ClsnmpSession Handle}
    (hsession : clsnmpSessionCreate sessOpen host.host host.community host.snmpver =
      .ok (some session)) {replies : Nat → Reply} (fewTables : FewTables host)
    (hsame : NoSameTime host replies) {maxErrors : UInt32} (hmax : 0 < maxErrors) :
    ∃ polled made, getClinserts sessOpen replies host maxErrors = .ok polled ∧
      CutsOff host replies maxErrors polled made := by
  obtain ⟨inserts, hpoll, _⟩ :=
    @getClinserts_returns Handle sessOpen replies host session maxErrors hsession fewTables hsame
  have hlimit : 0 < maxErrors.toNat := UInt32.lt_iff_toNat_lt.mp hmax
  have hlength := length_passes maxErrors replies host.rows
  have hexact : ∀ counted : Attempt → Bool, host.rows.length < 2 ^ 32 →
      (UInt32.ofNat ((passes maxErrors replies host.rows).countP counted)).toNat =
        (passes maxErrors replies host.rows).countP counted := by
    intro counted hrows
    have hcount := @List.countP_le_length _ counted (passes maxErrors replies host.rows)
    rw [UInt32.toNat_ofNat', Nat.mod_eq_of_lt (by omega)]
  refine ⟨_, passes maxErrors replies host.rows, hpoll, CutOff.tried_isCut hlimit _,
    queriesOf_flatMap _, rfl, ?_, ?_, ?_, hexact _, hexact _⟩
  · simp [polledOf, Nat.add_sub_cancel' hlength]
  · intro number row sample hqueried hrow hreply
    rw [polledOf_row hrow, if_pos hqueried, hreply]
    rfl
  · intro number row hrow hsilent
    rw [polledOf_row hrow]
    split
    · rename_i hqueried
      rw [hsilent hqueried]
      rfl
    · rfl

/-- The second port does not answer. -/
def halfAnswers : Nat → Reply := fun number => if number = 1 then none else some ⟨700, 600⟩

/-- With one error allowed, the first port caches its answer, and the third one is
not queried. -/
theorem cut_off_and_frame_portHost :
    ∃ polled made, getClinserts (fun _ _ _ => some ()) halfAnswers portHost 1 = .ok polled ∧
      CutsOff portHost halfAnswers 1 polled made ∧
      queriesOf polled.history = [(0, some ⟨700, 600⟩), (1, none)] ∧
      polled.host.rows.map (fun row => (row.cachedTime, row.cachedCounter)) =
        [(600, 700), (300, 100), (300, 100)] := by
  have hsame : NoSameTime portHost halfAnswers := by
    refine portHost_noSameTime _ fun number sample hsample => ?_
    unfold halfAnswers at hsample
    split at hsample <;> cases hsample
    rfl
  obtain ⟨polled, made, hpoll, cutsOff⟩ :=
    @cut_off_and_frame Unit (fun _ _ _ => some ()) portHost _ rfl halfAnswers
      portHost_fewTables hsame 1 (by decide)
  have hshown : (getClinserts (fun _ _ _ => some ()) halfAnswers portHost 1).map (fun polled =>
      (queriesOf polled.history,
        polled.host.rows.map fun row => (row.cachedTime, row.cachedCounter))) =
      .ok ([(0, some ⟨700, 600⟩), (1, none)], [(600, 700), (300, 100), (300, 100)]) := rfl
  rw [hpoll] at hshown
  obtain ⟨hqueries, hcaches⟩ := Prod.mk.inj (Except.ok.inj hshown)
  exact ⟨polled, made, hpoll, cutsOff, hqueries, hcaches⟩

end ClusteredPoller.Poller
