import ClusteredPoller.Poller.SessionFailure
import ClusteredPoller.Targets.Reload
import ClusteredPoller.Targets.RoundTrip

/-!
# The limit on tables

Nothing in the readers of the targets files limits the tables of a host, the
inserts of a poll have no slot to spare for the terminating `NULL`, and
`clinsert_count` reads a slot before it compares its number with the limit.
-/

namespace ClusteredPoller.Targets

open Poller
open Library.Outcome

/-- No poll fails the assertion; a poll that returns leaves an empty slot behind
its inserts, and counting the inserts reads no further than that slot. -/
structure TablesFit {Handle : Type} (sessOpen : SessOpen Handle) (replies : Nat → Reply)
    (host : Queryhost) (maxErrors : UInt32) : Prop where
  assertion : getClinserts sessOpen replies host maxErrors ≠ .error .assertion
  terminated : ∀ polled, getClinserts sessOpen replies host maxErrors = .ok polled →
    polled.inserts.length = maxTables ∧ none ∈ polled.inserts
  counted : ∀ polled, getClinserts sessOpen replies host maxErrors = .ok polled →
    ∃ count, clinsertCount polled.inserts = .ok count ∧
      count.toNat = polled.inserts.countP Option.isSome

/-- No pass leaves the program, and no accepted sample is without a table. -/
def GetsThrough (made : List Attempt) : Prop :=
  (∀ attempt ∈ made, attempt.exits = false) ∧ ∀ push ∈ accepted made, push.1.isSome

/-- The accepted samples use fewer tables than there are slots, or exactly as
many in a poll that does not get through. -/
def HasRoom (replies : Nat → Reply) (host : Queryhost) (maxErrors : UInt32) : Prop :=
  let made := passes maxErrors replies host.rows
  tableCount (accepted (beforeExit made)) ≤ maxTables ∧
    (tableCount (accepted (beforeExit made)) = maxTables → ¬ GetsThrough made)

/-! ## Hosts from a file -/

theorem checkForDuplicate_tables {rows : List Queryrow} {row : Queryrow}
    (hcheck : checkForDuplicate rows row = .ok false) :
    ∀ earlier ∈ rows, earlier.table.isSome ∧ row.table.isSome := by
  induction rows with
  | nil => simp
  | cons earlier rows ih =>
      rw [checkForDuplicate] at hcheck
      obtain ⟨sameOid, _, hcheck⟩ := bind_eq_ok.mp hcheck
      cases sameOid with
      | true => cases hcheck
      | false =>
          obtain ⟨sameTable, htable, hcheck⟩ := bind_eq_ok.mp hcheck
          split at hcheck
          · cases hcheck
          · refine List.forall_mem_cons.mpr ⟨?_, ih hcheck⟩
            cases hfirst : earlier.table <;> cases hsecond : row.table <;>
              simp [hfirst, hsecond, strcmpEqual] at htable ⊢

/-- A second row is compared with the first, and so both name their tables. -/
theorem addTarget_namesTables {host next : Queryhost} {row : Queryrow}
    (hhost : NamesTables host.rows) (hadd : addTarget host row = .ok next) :
    NamesTables next.rows := by
  obtain ⟨duplicate, hcheck, hnext⟩ := bind_eq_ok.mp hadd
  cases duplicate with
  | true =>
      cases hnext
      exact hhost
  | false =>
      cases hnext
      intro hmore other hother
      have hrows := checkForDuplicate_tables hcheck
      obtain ⟨first, hfirst⟩ : ∃ first, first ∈ host.rows := by
        refine List.exists_mem_of_ne_nil _ fun hempty => ?_
        simp [pushRow, hempty] at hmore
      rcases List.mem_append.mp hother with hearlier | hlast
      · exact (hrows other hearlier).1
      · rw [List.mem_singleton.mp hlast]
        exact (hrows first hfirst).2

theorem HostBlock.eval_namesTables {conf : Rtgconf} {block : HostBlock} {host : Queryhost}
    (heval : block.eval conf = .ok host) : NamesTables host.rows := by
  refine @foldlM_keeps _ _ _ (fun host => NamesTables host.rows) _ _ _ _ ?_ ?_ heval
  · intro state item next hstate hnext
    cases HostItem.applied hnext with
    | community text => exact hstate
    | snmpver value => exact hstate
    | target hrow hadd => exact addTarget_namesTables hstate hadd
  · exact fun hmore => absurd hmore (by simp [queryhostCreate])

/-- The rows of every host that a file gives name their tables. -/
theorem rtgtargetsParse_namesTables {unspecified : Unspecified} {file : File} {conf : Rtgconf}
    {targets : Rtgtargets} (hparse : rtgtargetsParse unspecified file conf = .ok targets) :
    ∀ host ∈ targets.hosts, NamesTables host.rows := by
  intro host hhost
  rw [rtgtargetsParse_blocks] at hparse
  split at hparse
  · obtain ⟨speed, rfl⟩ := readOldStyleTargets_ok hparse
    obtain ⟨group, -, rfl⟩ := List.mem_map.mp hhost
    intro _ row hrow
    obtain ⟨fields, -, rfl⟩ := List.mem_map.mp hrow
    rfl
  · obtain ⟨hosts, hhosts, hall⟩ := evalBlocks_ok hparse
    have hmem : host ∈ hosts := by
      rw [hhosts] at hhost
      exact hhost
    obtain ⟨index, hindex, rfl⟩ := List.getElem_of_mem hmem
    have hbound : index < (fileBlocks unspecified file).length := hall.length_eq ▸ hindex
    exact HostBlock.eval_namesTables (hall.get hbound hindex)

/-! ## Counting the inserts -/

/-- Counting stops at the first empty slot. -/
theorem clinsertCount_front {inserts : Inserts} {count free : Nat}
    (hslots : inserts.map Option.isSome =
      List.replicate count true ++ List.replicate free false) :
    clinsertCount inserts =
      if free = 0 then .error .outOfBounds else .ok (UInt32.ofNat count) := by
  induction inserts generalizing count with
  | nil =>
      have hfree : free = 0 := by
        have hlength := congrArg List.length hslots
        simp at hlength
        omega
      rw [if_pos hfree]
      rfl
  | cons slot rest ih =>
      cases count with
      | zero =>
          cases free with
          | zero => cases hslots
          | succ free =>
              have hslot : slot = none := by
                have hfirst := (List.cons.inj hslots).1
                simpa using hfirst
              rw [hslot]
              rfl
      | succ count =>
          obtain ⟨hslot, hrest⟩ := List.cons.inj hslots
          obtain ⟨insert, rfl⟩ := Option.isSome_iff_exists.mp hslot
          rw [clinsertCount, ih hrest]
          by_cases hfree : free = 0
          · rw [if_pos hfree, if_pos hfree]
            rfl
          · rw [if_neg hfree, if_neg hfree]
            simp [UInt32.ofNat_add]

/-! ## The polls that keep to the limit -/

section Poll

variable {Handle : Type} {sessOpen : SessOpen Handle} {replies : Nat → Reply} {host : Queryhost}
  {maxErrors : UInt32}

/-- A poll that fails otherwise than by the assertion. -/
theorem tablesFit_of_error {fault : Fault} (hfault : fault ≠ .assertion)
    (hpoll : getClinserts sessOpen replies host maxErrors = .error fault) :
    TablesFit sessOpen replies host maxErrors := by
  constructor
  · rw [hpoll]
    exact fun heq => hfault (Except.error.inj heq)
  · intro polled hreturns
    rw [hpoll] at hreturns
    cases hreturns
  · intro polled hreturns
    rw [hpoll] at hreturns
    cases hreturns

/-- A poll that returns slots filled from the front. -/
theorem tablesFit_of_filled {polled : Polled} {count : Nat}
    (hpoll : getClinserts sessOpen replies host maxErrors = .ok polled)
    (filled : Filled polled.inserts count) :
    TablesFit sessOpen replies host maxErrors ↔ count < maxTables := by
  constructor
  · exact fun fit => filled.none_mem_iff.mp (fit.terminated polled hpoll).2
  · intro hcount
    have hcounted := clinsertCount_front filled.slots
    rw [if_neg (Nat.sub_ne_zero_of_lt hcount)] at hcounted
    constructor
    · rw [hpoll]
      intro himpossible
      cases himpossible
    · intro other hother
      rw [hpoll] at hother
      cases hother
      exact ⟨filled.length, filled.none_mem_iff.mpr hcount⟩
    · intro other hother
      rw [hpoll] at hother
      cases hother
      refine ⟨_, hcounted, ?_⟩
      have hsmall : count < 2 ^ 32 := Nat.lt_trans hcount (by decide)
      rw [filled.countP, UInt32.toNat_ofNat', Nat.mod_eq_of_lt hsmall]

theorem any_exits_iff {made : List Attempt} :
    ¬ made.any Attempt.exits = true ↔ ∀ attempt ∈ made, attempt.exits = false := by
  simp

/-- What is accepted before a pass leaves the program is accepted. -/
theorem accepted_beforeExit {made : List Attempt} {push : Push}
    (hpush : push ∈ accepted (beforeExit made)) : push ∈ accepted made := by
  obtain ⟨attempt, hattempt, hpushed⟩ := List.mem_filterMap.mp hpush
  exact List.mem_filterMap.mpr ⟨attempt, (List.takeWhile_prefix _).subset hattempt, hpushed⟩

/-- With a session the poll keeps to the limit exactly if there is room. -/
theorem tablesFit_iff_hasRoom {session : ClsnmpSession Handle}
    (hsession : clsnmpSessionCreate sessOpen host.host host.community host.snmpver =
      .ok (some session)) :
    TablesFit sessOpen replies host maxErrors ↔ HasRoom replies host maxErrors := by
  have hpoll := getClinserts_eq hsession replies maxErrors
  unfold HasRoom
  dsimp only at hpoll ⊢
  generalize passes maxErrors replies host.rows = made at hpoll ⊢
  have hstoring := storing (accepted (beforeExit made))
  generalize storeAll noInserts (accepted (beforeExit made)) = stored at hpoll hstoring
  cases hstoring with
  | overflow many =>
      refine iff_of_false (fun fit => fit.assertion hpoll) ?_
      exact fun hroom => absurd hroom.1 (Nat.not_le.mpr many)
  | null few nameless =>
      refine iff_of_true (tablesFit_of_error (by simp) hpoll) ⟨few, fun _ getsThrough => ?_⟩
      obtain ⟨push, hpush, hnull⟩ := nameless
      have hnamed := getsThrough.2 push (accepted_beforeExit hpush)
      rw [hnull] at hnamed
      cases hnamed
  | named filled hnamed =>
      rw [ok_bind] at hpoll
      by_cases hexits : made.any Attempt.exits = true
      · rw [if_pos hexits] at hpoll
        refine iff_of_true (tablesFit_of_error (by simp) hpoll) ⟨filled.room, ?_⟩
        exact fun _ getsThrough => any_exits_iff.mpr getsThrough.1 hexits
      · rw [if_neg hexits] at hpoll
        have hruns := any_exits_iff.mp hexits
        rw [tablesFit_of_filled hpoll filled]
        rw [beforeExit_eq hruns] at hnamed ⊢
        constructor
        · exact fun hcount => ⟨Nat.le_of_lt hcount, fun heq => absurd heq (Nat.ne_of_lt hcount)⟩
        · exact fun hroom => Nat.lt_of_le_of_ne hroom.1 fun heq => hroom.2 heq ⟨hruns, hnamed⟩
  | nameless filled few _ =>
      rw [ok_bind] at hpoll
      refine iff_of_true ?_ ⟨Nat.le_of_lt few, fun heq => absurd heq (Nat.ne_of_lt few)⟩
      split at hpoll
      · exact tablesFit_of_error (by simp) hpoll
      · exact (tablesFit_of_filled hpoll filled).mpr (by decide)

/-- Whatever the host and the replies, the poll keeps to the limit exactly if
its accepted samples use fewer than `MAX_TABLES` tables, or exactly as many in a
poll that ends in another fault. -/
theorem tables_fit_iff (sessOpen : SessOpen Handle) (replies : Nat → Reply) (host : Queryhost)
    (maxErrors : UInt32) :
    TablesFit sessOpen replies host maxErrors ↔
      ∀ session, clsnmpSessionCreate sessOpen host.host host.community host.snmpver =
        .ok (some session) → HasRoom replies host maxErrors := by
  cases hsession : clsnmpSessionCreate sessOpen host.host host.community host.snmpver with
  | error fault =>
      have hpoll : getClinserts sessOpen replies host maxErrors = .error fault := by
        rw [getClinserts, hsession]
        rfl
      have hnull := sessionCreate_fault hsession
      refine iff_of_true (tablesFit_of_error (by simp [hnull]) hpoll) ?_
      intro session himpossible
      cases himpossible
  | ok created =>
      cases created with
      | none =>
          have hpoll := getClinserts_without_session hsession replies maxErrors
          refine iff_of_true (tablesFit_of_error (by simp) hpoll) ?_
          intro session himpossible
          cases himpossible
      | some session =>
          rw [tablesFit_iff_hasRoom hsession]
          exact ⟨fun hroom _ _ => hroom, fun hrooms => hrooms session rfl⟩

end Poll

/-! ## Idle gauges -/

/-- A gauge that has read zero, or nothing, so far. -/
structure IdleGauge (row : Queryrow) : Prop where
  gauge : row.bits = 0
  cached : row.cachedCounter = 0
  speed : 0 < row.speed
  table : row.table.isSome

theorem IdleGauge.accepts {row : Queryrow} (idle : IdleGauge row) (dtime : Int) :
    acceptedValue row ⟨0, dtime⟩ = some ⟨row.id, 0, 0, dtime, 0⟩ := by
  have hprevious : HasPrevious row ⟨0, dtime⟩ := ⟨Or.inl idle.gauge, Or.inr ⟨idle.cached, rfl⟩⟩
  unfold acceptedValue
  rw [idle.gauge, calculateRate_gauge]
  exact if_pos ⟨hprevious, idle.speed⟩

theorem IdleGauge.accepted {rows : List Queryrow} (hidle : ∀ row ∈ rows, IdleGauge row)
    (dtime : Int) (start : Nat) :
    Poller.accepted (attemptsFrom (answers 0 dtime) start rows) =
      rows.map fun row => (row.table, ⟨row.id, 0, 0, dtime, 0⟩) := by
  induction rows generalizing start with
  | nil => rfl
  | cons row rows ih =>
      obtain ⟨hrow, hrows⟩ := List.forall_mem_cons.mp hidle
      have hvalue : Attempt.value ⟨start, row, answers 0 dtime start⟩ =
          some ⟨row.id, 0, 0, dtime, 0⟩ := hrow.accepts dtime
      rw [attemptsFrom, accepted_cons, ih hrows, Attempt.push, hvalue]
      rfl

/-- Each idle gauge takes a slot if they all have tables of their own. -/
theorem hasRoom_idle_iff {host : Queryhost} (hidle : ∀ row ∈ host.rows, IdleGauge row)
    (hdistinct : (host.rows.map Queryrow.table).Nodup) (dtime : Int) :
    HasRoom (answers 0 dtime) host 1 ↔ host.rows.length < maxTables := by
  have hfailed : ∀ attempt ∈ attemptsFrom (answers 0 dtime) 0 host.rows,
      attempt.failed = false := by
    intro attempt hattempt
    obtain ⟨_, _, _, hreply⟩ := mem_attemptsFrom hattempt
    rw [Attempt.failed, hreply]
    rfl
  have hmade :
      passes 1 (answers 0 dtime) host.rows = attemptsFrom (answers 0 dtime) 0 host.rows := by
    refine (Library.CutOff.tried_isCut (by decide) _).whole ?_
    rw [List.countP_eq_zero.mpr fun attempt hattempt => by simp [hfailed attempt hattempt]]
    decide
  have hruns : ∀ attempt ∈ attemptsFrom (answers 0 dtime) 0 host.rows, attempt.exits = false := by
    intro attempt hattempt
    obtain ⟨place, hrow, _, hreply⟩ := mem_attemptsFrom hattempt
    rw [Attempt.exits, hreply]
    refine decide_eq_false fun hexits => ?_
    exact hexits.2.1 (hidle _ (List.mem_of_getElem? hrow)).gauge
  have haccepted := IdleGauge.accepted hidle dtime 0
  have hnamed : ∀ push ∈ Poller.accepted (attemptsFrom (answers 0 dtime) 0 host.rows),
      push.1.isSome := by
    rw [haccepted]
    intro push hpush
    obtain ⟨row, hrow, rfl⟩ := List.mem_map.mp hpush
    exact (hidle row hrow).table
  have hcount : tableCount (Poller.accepted (attemptsFrom (answers 0 dtime) 0 host.rows)) =
      host.rows.length := by
    rw [tableCount, List.takeWhile_eq_self_iff.mpr hnamed, haccepted, List.map_map]
    exact (List.toFinset_card_of_nodup hdistinct).trans (List.length_map _)
  unfold HasRoom
  dsimp only
  rw [hmade, beforeExit_eq hruns, hcount]
  constructor
  · exact fun hroom => Nat.lt_of_le_of_ne hroom.1 fun heq => hroom.2 heq ⟨hruns, hnamed⟩
  · exact fun hfew => ⟨Nat.le_of_lt hfew, fun heq => absurd heq (Nat.ne_of_lt hfew)⟩

/-- The word, and behind it a number from 1 on. -/
def numbered (word : Argument) (hroom : word.text.chars.length ≤ 100) (index : Fin 128) :
    Argument where
  text := word.text ++ CString.decimal (index + 1)
  nonempty := by simp [word.nonempty]
  noSpace char hchar := by
    rcases List.mem_append.mp hchar with hword | hdigit
    · exact word.noSpace char hword
    · exact isDigit_not_space (Nat.isDigit_of_mem_toDigits (by decide) (by decide) hdigit)
  noSemicolon hsemicolon := by
    rcases List.mem_append.mp hsemicolon with hword | hdigit
    · exact word.noSemicolon hword
    · exact absurd (Nat.isDigit_of_mem_toDigits (by decide) (by decide) hdigit) (by decide)
  fits := by
    have hsmall : (index : Nat) + 1 < 10 ^ 28 :=
      Nat.lt_of_le_of_lt (Nat.succ_le_of_lt index.isLt) (by decide)
    have hdigits := (Nat.length_toDigits_le_iff (by decide) (by decide)).mpr hsmall
    rw [CString.append_chars, List.length_append]
    exact Nat.add_le_add hroom hdigits

theorem numbered_text_inj (word : Argument) (hroom : word.text.chars.length ≤ 100)
    {first second : Fin 128}
    (htext : (numbered word hroom first).text = (numbered word hroom second).text) :
    first = second := by
  have hdigits := List.append_cancel_left (congrArg CString.chars htext)
  have hnumbers := congrArg (fun digits => Nat.ofDigitChars 10 digits 0) hdigits
  have hsame : (first : Nat) + 1 = second + 1 := by
    simpa only [CString.decimal, Nat.ofDigitChars_ten_toDigits] using hnumbers
  exact Fin.ext (Nat.succ.inj hsame)

def processorOid : Fin 128 → Argument :=
  numbered (argument (CString.ofString ".1.3.6.1.2.1.25.3.3.1.2.")) (by decide)

def processorTable : Fin 128 → Argument :=
  numbered (argument (CString.ofString "hrProcessorLoad_")) (by decide)

theorem processorOid_inj {first second : Fin 128}
    (htext : (processorOid first).text = (processorOid second).text) : first = second :=
  numbered_text_inj _ (by decide) htext

theorem processorTable_inj {first second : Fin 128}
    (htext : (processorTable first).text = (processorTable second).text) : first = second :=
  numbered_text_inj _ (by decide) htext

/-- The load of a processor, as a gauge with a table of its own. -/
def ownTable (index : Fin 128) : TargetText where
  oid := processorOid index
  bits := 0
  table := processorTable index
  id := 1
  speed := 1

def wideHost (count : Nat) : HostText :=
  { exampleHost with targets := ((List.finRange 128).take count).map ownTable }

theorem wideHost_differs (count : Nat) : (wideHost count).targets.Pairwise TargetText.Differs := by
  have hnodup : ((List.finRange 128).take count).Nodup :=
    (List.nodup_finRange 128).sublist (List.take_sublist _ _)
  refine List.pairwise_map.mpr (hnodup.imp fun hne => ?_)
  exact ⟨fun heq => hne (processorOid_inj heq), fun both => hne (processorTable_inj both.1)⟩

theorem hostOf_wideHost (count : Nat) :
    hostOf defaultRtgconf (wideHost count) =
      { emptyHostOf (wideHost count) with
        rows := ((List.finRange 128).take count).map fun index =>
          rowOf defaultRtgconf (ownTable index) } := by
  rw [hostOf_distinct (wideHost_differs count), wideHost, List.map_map]
  rfl

/-- The first poll of the host with so many tables, in which every gauge reads
zero. -/
theorem tablesFit_wideHost_iff {count : Nat} (hcount : count ≤ 128) :
    TablesFit (fun _ _ _ => some ()) (answers 0 300) (hostOf defaultRtgconf (wideHost count)) 1 ↔
      count < maxTables := by
  rw [hostOf_wideHost, tablesFit_iff_hasRoom rfl, hasRoom_idle_iff]
  · rw [List.length_map, List.length_take, List.length_finRange, Nat.min_eq_left hcount]
  · intro row hrow
    obtain ⟨index, _, rfl⟩ := List.mem_map.mp hrow
    have hspeed : (0 : UInt64) < 1 := by decide
    exact ⟨rfl, rfl, hspeed, rfl⟩
  · rw [List.map_map]
    refine List.Nodup.map (fun first second heq => ?_)
      ((List.nodup_finRange 128).sublist (List.take_sublist _ _))
    exact processorTable_inj (Option.some.inj heq)

/-- Files that give a host as many tables as there are slots, and one more. -/
theorem tables_do_not_fit :
    (∃ targets, rtgtargetsParse ⟨0, fun _ => 0⟩ (some (documentedLayout.render [wideHost 64]))
        defaultRtgconf = .ok targets ∧
      ∃ host ∈ targets.hosts, ¬ TablesFit (fun _ _ _ => some ()) (answers 0 300) host 1) ∧
    ∃ targets, rtgtargetsParse ⟨0, fun _ => 0⟩ (some (documentedLayout.render [wideHost 65]))
        defaultRtgconf = .ok targets ∧
      ∃ host ∈ targets.hosts, ¬ TablesFit (fun _ _ _ => some ()) (answers 0 300) host 1 := by
  have hhost : ∀ count ≤ 128, maxTables ≤ count →
      ∃ targets, rtgtargetsParse ⟨0, fun _ => 0⟩
          (some (documentedLayout.render [wideHost count])) defaultRtgconf = .ok targets ∧
        ∃ host ∈ targets.hosts, ¬ TablesFit (fun _ _ _ => some ()) (answers 0 300) host 1 := by
    intro count hcount hmany
    refine ⟨_, rtgtargetsParse_render _ (by decide) documentedLayout (by simp), _,
      List.mem_singleton_self _, ?_⟩
    rw [tablesFit_wideHost_iff hcount]
    exact Nat.not_lt.mpr hmany
  exact ⟨hhost 64 (by decide) (by decide), hhost 65 (by decide) (by decide)⟩

end ClusteredPoller.Targets
