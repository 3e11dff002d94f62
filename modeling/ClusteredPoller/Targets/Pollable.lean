import ClusteredPoller.Poller.Strings
import ClusteredPoller.Targets.Hosts
import ClusteredPoller.Targets.Interval
import ClusteredPoller.Targets.Records

/-!
# Hosts that can be polled

A poll needs the strings of a host.  The old-style reader sets all of them; the
new-style reader sets those that its file has, and a file may lack some.
-/

namespace ClusteredPoller.Targets

open Poller
open Library.Outcome (Yields bind_eq_ok forall_mem_of_foldlM ok_bind)

/-- The strings that a poll hands to string functions are there, and so no poll
hands `NULL` to one. -/
structure Pollable (host : Queryhost) : Prop where
  named : host.host.isSome
  community : host.community.isSome
  rows : ∀ row ∈ host.rows, Named row
  polls : ∀ {Handle : Type} (sessOpen : SessOpen Handle) (replies : Nat → Reply)
    (maxErrors : UInt32), getClinserts sessOpen replies host maxErrors ≠ .error .nullString

theorem pollable_of_strings {host : Queryhost} (hnamed : host.host.isSome)
    (hcommunity : host.community.isSome) (hrows : ∀ row ∈ host.rows, Named row) :
    Pollable host := by
  constructor
  · exact hnamed
  · exact hcommunity
  · exact hrows
  · intro Handle sessOpen replies maxErrors
    exact getClinserts_noNull sessOpen replies maxErrors hcommunity fun row hrow =>
      (hrows row hrow).2

/-- Reading gives hosts that can be polled, or ends in a division by the
interval. -/
def GivesPollable (outcome : Except Fault Rtgtargets) : Prop :=
  Yields (· = .divisionByZero) (fun targets => ∀ host ∈ targets.hosts, Pollable host) outcome

/-! ## What a block must have -/

/-- The directive sets the table. -/
def RowDirective.givesTable : RowDirective → Bool
  | .table text => text.isSome
  | _ => false

/-- No argument is missing, and each target has a table or, as it will be
dropped, the OID of the first target. -/
def completeItems (first : Option CString) : List HostItem → Bool
  | [] => true
  | .community text :: items => text.isSome && completeItems first items
  | .snmpver _ :: items => completeItems first items
  | .target none _ :: _ => false
  | .target (some oid) directives :: items =>
      !directives.contains (.table none) &&
        (directives.any RowDirective.givesTable || first = some oid) &&
          completeItems (first.or (some oid)) items

def HostItem.isCommunity : HostItem → Bool
  | .community _ => true
  | _ => false

/-- The block has a community, and a table for each row. -/
def HostBlock.complete (block : HostBlock) : Bool :=
  block.items.any HostItem.isCommunity && completeItems none block.items

/-! ## Rows -/

theorem apply_yields {conf : Rtgconf} {row : Queryrow} {directive : RowDirective}
    (htext : directive ≠ .table none) :
    Yields (· = .divisionByZero)
      (fun next => next.oid = row.oid ∧
        next.table.isSome = (row.table.isSome || directive.givesTable))
      (directive.apply conf row) := by
  cases directive with
  | bits value => exact Yields.pure (by simp [RowDirective.givesTable])
  | table text =>
      cases text with
      | none => exact absurd rfl htext
      | some text => exact Yields.pure (by simp [RowDirective.givesTable])
  | id value => exact Yields.pure (by simp [RowDirective.givesTable])
  | speed maxCounterDiff =>
      simp only [RowDirective.apply]
      split_ifs
      · exact Yields.pure (by simp [RowDirective.givesTable])
      · exact Yields.error rfl
      · exact Yields.pure (by simp [RowDirective.givesTable])
  | other => exact Yields.pure (by simp [RowDirective.givesTable])

theorem evalRow_yields {conf : Rtgconf} {oid : CString} {directives : List RowDirective}
    (htexts : RowDirective.table none ∉ directives) :
    Yields (· = .divisionByZero)
      (fun row => row.oid = some oid ∧
        row.table.isSome = directives.any RowDirective.givesTable)
      (evalRow conf oid directives) := by
  have hloop : ∀ (directives : List RowDirective) (start : Queryrow),
      RowDirective.table none ∉ directives →
        Yields (· = .divisionByZero)
          (fun row => row.oid = start.oid ∧
            row.table.isSome = (start.table.isSome || directives.any RowDirective.givesTable))
          (directives.foldlM (RowDirective.apply conf) start) := by
    intro directives
    induction directives with
    | nil => exact fun start _ => Yields.pure (by simp)
    | cons directive directives ih =>
        intro start htexts
        rw [List.mem_cons, not_or] at htexts
        rw [List.foldlM_cons]
        refine (apply_yields (Ne.symm htexts.1)).bind fun next hnext => ?_
        rw [← hnext.1, List.any_cons, ← Bool.or_assoc, ← hnext.2]
        exact ih next htexts.2
  have hrow := hloop directives { queryrowCreate with oid := some oid } htexts
  simpa [evalRow, queryrowCreate] using hrow

/-- A missing table argument ends the reading. -/
theorem evalRow_texts {conf : Rtgconf} {oid : CString} {directives : List RowDirective}
    {row : Queryrow} (heval : evalRow conf oid directives = .ok row) :
    RowDirective.table none ∉ directives := by
  have hgiven : ∀ directive ∈ directives, directive ≠ .table none := by
    refine forall_mem_of_foldlM (fun row directive next hnext heq => ?_) heval
    rw [heq] at hnext
    cases hnext
  exact fun hmem => hgiven _ hmem rfl

/-! ## Hosts -/

/-- The OID of the first row. -/
def firstOid (host : Queryhost) : Option CString := host.rows.head?.bind Queryrow.oid

theorem firstOid_addRow {host : Queryhost} {row : Queryrow}
    (hrows : ∀ earlier ∈ host.rows, Named earlier) :
    firstOid (addRow host row) = (firstOid host).or row.oid := by
  unfold addRow firstOid
  cases hhost : host.rows with
  | nil => simp [pushRow, hhost]
  | cons first rest =>
      have hfirst := (hrows first (by simp [hhost])).1
      obtain ⟨oid, hoid⟩ := Option.isSome_iff_exists.mp hfirst
      split <;> simp [pushRow, hhost, hoid]

/-- A row with the OID of the first one is dropped before its table matters. -/
theorem addTarget_first {host : Queryhost} {row : Queryrow} {oid : CString}
    (hfirst : firstOid host = some oid) (hrow : row.oid = some oid) :
    addTarget host row = .ok host := by
  unfold firstOid at hfirst
  cases hhost : host.rows with
  | nil => simp [hhost] at hfirst
  | cons first rest =>
      have hoid : first.oid = some oid := by simpa [hhost] using hfirst
      have hcheck : checkForDuplicate host.rows row = .ok true := by
        rw [hhost, checkForDuplicate, hoid, hrow]
        simp [strcmpEqual]
        rfl
      rw [addTarget, hcheck]
      rfl

/-- A row without a table that is compared with another one's table. -/
theorem addTarget_tableless {host : Queryhost} {row : Queryrow}
    (hhost : host.rows ≠ []) (hrows : ∀ earlier ∈ host.rows, Named earlier)
    (hoid : row.oid.isSome) (hfirst : firstOid host ≠ row.oid) (htable : row.table = none) :
    addTarget host row = .error .nullString := by
  cases hrest : host.rows with
  | nil => exact absurd hrest hhost
  | cons first rest =>
      have hnamed := hrows first (by simp [hrest])
      have hne : first.oid ≠ row.oid := by simpa [firstOid, hrest] using hfirst
      have hcheck : checkForDuplicate host.rows row = .error .nullString := by
        rw [hrest, checkForDuplicate, strcmpEqual_some hnamed.1 hoid, htable]
        simp [hne, strcmpEqual]
      rw [addTarget, hcheck]
      rfl

/-- The item keeps the strings that are set, and sets those it gives. -/
theorem completeItems_yields {conf : Rtgconf} {items : List HostItem} {host : Queryhost}
    (hrows : ∀ row ∈ host.rows, Named row)
    (hcomplete : completeItems (firstOid host) items = true) :
    Yields (· = .divisionByZero)
      (fun final => final.host = host.host ∧ (∀ row ∈ final.rows, Named row) ∧
        final.community.isSome = (host.community.isSome || items.any HostItem.isCommunity))
      (items.foldlM (HostItem.apply conf) host) := by
  induction items generalizing host with
  | nil => exact Yields.pure ⟨rfl, hrows, by simp⟩
  | cons item items ih =>
      rw [List.foldlM_cons]
      cases item with
      | community text =>
          cases text with
          | none => simp [completeItems] at hcomplete
          | some text =>
              simp only [completeItems, Option.isSome_some, Bool.true_and] at hcomplete
              have hnext := @ih { host with community := some text } hrows hcomplete
              simpa [HostItem.apply, strdupArgument, HostItem.isCommunity] using hnext
      | snmpver value =>
          have hnext := @ih { host with snmpver := value.getD host.snmpver } hrows hcomplete
          simpa [HostItem.apply, HostItem.isCommunity] using hnext
      | target text directives =>
          cases text with
          | none => simp [completeItems] at hcomplete
          | some oid =>
              simp only [completeItems, Bool.and_eq_true, Bool.not_eq_true',
                Bool.or_eq_true, decide_eq_true_eq] at hcomplete
              obtain ⟨⟨htexts, htable⟩, hrest⟩ := hcomplete
              have htexts : RowDirective.table none ∉ directives := by simpa using htexts
              simp only [HostItem.apply, strdupArgument, ok_bind, bind_assoc]
              refine (evalRow_yields htexts).bind fun row hrow => ?_
              simp only [List.any_cons, HostItem.isCommunity, Bool.false_or]
              by_cases hfirst : firstOid host = some oid
              · rw [addTarget_first hfirst hrow.1]
                refine ih hrows ?_
                simpa [hfirst] using hrest
              · have hnamed : Named row := by
                  constructor
                  · simp [hrow.1]
                  · rw [hrow.2]
                    exact htable.resolve_right hfirst
                rw [addTarget_named hrows hnamed, ok_bind, ← addRow_host host row,
                  ← addRow_community host row]
                refine ih (named_addRow hrows hnamed) ?_
                rw [firstOid_addRow hrows, hrow.1]
                exact hrest

/-- If all rows have their strings behind a target, too, then it has a table or
the OID of the first one. -/
theorem target_of_ok {host next : Queryhost} {row : Queryrow} {oid : CString}
    (hrows : ∀ earlier ∈ host.rows, Named earlier) (hoid : row.oid = some oid)
    (hadd : addTarget host row = .ok next) (hkept : ∀ earlier ∈ next.rows, Named earlier) :
    (row.table.isSome ∧ next = addRow host row) ∨ (firstOid host = some oid ∧ next = host) := by
  have hsome : row.oid.isSome := by simp [hoid]
  cases htable : row.table with
  | some table =>
      have hnamed : Named row := ⟨hsome, by simp [htable]⟩
      rw [addTarget_named hrows hnamed] at hadd
      cases hadd
      exact Or.inl ⟨rfl, rfl⟩
  | none =>
      right
      by_cases hfirst : firstOid host = some oid
      · rw [addTarget_first hfirst hoid] at hadd
        cases hadd
        exact ⟨hfirst, rfl⟩
      · by_cases hempty : host.rows = []
        · rcases addTarget_cases hadd with ⟨-, hne⟩ | ⟨rfl, -⟩
          · exact absurd hempty hne
          · have hnamed := hkept row (List.mem_append_right _ List.mem_cons_self)
            simp [Named, htable] at hnamed
        · rw [← hoid] at hfirst
          rw [addTarget_tableless hempty hrows hsome hfirst htable] at hadd
          cases hadd

/-- Items that end well, with a table in each row, were complete. -/
theorem completeItems_of_ok {conf : Rtgconf} {items : List HostItem} {host final : Queryhost}
    (hrun : items.foldlM (HostItem.apply conf) host = .ok final)
    (hfinal : ∀ row ∈ final.rows, Named row) :
    completeItems (firstOid host) items = true ∧
      final.community.isSome = (host.community.isSome || items.any HostItem.isCommunity) := by
  have hrows : ∀ row ∈ host.rows, Named row := fun row hrow =>
    hfinal row ((items_keep hrun).2 row hrow)
  induction items generalizing host with
  | nil =>
      cases hrun
      simp [completeItems]
  | cons item items ih =>
      rw [List.foldlM_cons] at hrun
      obtain ⟨next, hnext, hrest⟩ := bind_eq_ok.mp hrun
      have hkept : ∀ row ∈ next.rows, Named row := fun row hrow =>
        hfinal row ((items_keep hrest).2 row hrow)
      obtain ⟨hcomplete, hcommunity⟩ := ih hrest hkept
      cases HostItem.applied hnext with
      | community text =>
          constructor
          · simpa [completeItems, firstOid] using hcomplete
          · simpa [HostItem.isCommunity] using hcommunity
      | snmpver value =>
          constructor
          · simpa [completeItems, firstOid] using hcomplete
          · simpa [HostItem.isCommunity] using hcommunity
      | @target oid directives row _ heval hadd =>
          have htexts := evalRow_texts heval
          obtain ⟨hoid, htable⟩ := (evalRow_yields htexts).ok row heval
          obtain ⟨hgives, rfl⟩ | ⟨hfirst, rfl⟩ := target_of_ok hrows hoid hadd hkept
          · rw [htable] at hgives
            rw [firstOid_addRow hrows, hoid] at hcomplete
            constructor
            · simpa [completeItems, htexts, hgives] using hcomplete
            · simpa [HostItem.isCommunity] using hcommunity
          · constructor
            · simpa [completeItems, htexts, hfirst] using hcomplete
            · simpa [HostItem.isCommunity] using hcommunity

/-- A complete block gives a host that can be polled. -/
theorem HostBlock.eval_pollable {conf : Rtgconf} {block : HostBlock}
    (hcomplete : block.complete = true) :
    Yields (· = .divisionByZero) Pollable (block.eval conf) := by
  simp only [HostBlock.complete, Bool.and_eq_true] at hcomplete
  have hitems : completeItems (firstOid { queryhostCreate with host := some block.name })
      block.items = true := hcomplete.2
  have hrows : ∀ row ∈ ({ queryhostCreate with host := some block.name } : Queryhost).rows,
      Named row := by
    simp [queryhostCreate]
  have hyields := @completeItems_yields conf _ _ hrows hitems
  constructor
  · intro host hhost
    obtain ⟨hname, hnamed, hcommunity⟩ := hyields.ok host hhost
    refine pollable_of_strings (by simp [hname]) ?_ hnamed
    simp [hcommunity, hcomplete.1]
  · exact hyields.fails

/-- No other block does. -/
theorem HostBlock.complete_of_pollable {conf : Rtgconf} {block : HostBlock} {host : Queryhost}
    (heval : block.eval conf = .ok host) (hpollable : Pollable host) : block.complete = true := by
  obtain ⟨hitems, hcommunity⟩ := completeItems_of_ok heval hpollable.rows
  rw [hpollable.community] at hcommunity
  simp only [HostBlock.complete, Bool.and_eq_true]
  constructor
  · simpa [queryhostCreate] using hcommunity.symm
  · exact hitems

/-! ## Files -/

theorem readOldStyleTargets_pollable (unspecified : Unspecified) (file : File) (conf : Rtgconf) :
    GivesPollable (readOldStyleTargets unspecified file conf) := by
  cases file with
  | none => exact Yields.pure (by simp [rtgtargetsCreate])
  | some text =>
      by_cases hinterval : conf.interval = 0
      · by_cases hrecords : recordsOf text = []
        · rw [readOldStyleTargets_nothing hrecords]
          exact Yields.pure (by simp [rtgtargetsCreate])
        · rw [readOldStyleTargets_divides hinterval hrecords]
          exact Yields.error rfl
      · rw [readOldStyleTargets_eq (if_neg hinterval)]
        refine Yields.pure fun host hhost => ?_
        obtain ⟨group, -, rfl⟩ := List.mem_map.mp hhost
        refine pollable_of_strings rfl rfl fun row hrow => ?_
        obtain ⟨fields, -, rfl⟩ := List.mem_map.mp hrow
        exact ⟨rfl, rfl⟩

theorem evalBlocks_pollable {conf : Rtgconf} {blocks : List HostBlock}
    (hblocks : ∀ block ∈ blocks, block.complete = true) :
    GivesPollable (evalBlocks conf rtgtargetsCreate blocks) := by
  refine Yields.foldlM (fun targets block hblock htargets => ?_) (by simp [rtgtargetsCreate])
  refine (HostBlock.eval_pollable (hblocks block hblock)).bind fun host hhost => ?_
  refine Yields.pure fun other hother => ?_
  rcases List.mem_append.mp hother with hother | hother
  · exact htargets other hother
  · rw [List.mem_singleton.mp hother]
    exact hhost

/-- All hosts that `rtgtargets_parse` returns can be polled exactly if all
blocks of the file are complete. -/
theorem parse_pollable_iff (unspecified : Unspecified) (file : File) :
    (∀ conf, GivesPollable (rtgtargetsParse unspecified file conf)) ↔
      ∀ block ∈ fileBlocks unspecified file, block.complete = true := by
  constructor
  · intro hparse block hblock
    have hreading := hparse defaultRtgconf
    cases hresult : rtgtargetsParse unspecified file defaultRtgconf with
    | error fault =>
        rcases rtgtargetsParse_fails file fault hresult with rfl | rfl | ⟨rfl, hinterval⟩
        · exact absurd (hreading.fails _ hresult) (by simp)
        · exact absurd (hreading.fails _ hresult) (by simp)
        · exact absurd hinterval (by decide)
    | ok targets =>
        have hne : fileBlocks unspecified file ≠ [] := List.ne_nil_of_mem hblock
        rw [rtgtargetsParse_blocks, if_neg hne] at hresult hreading
        obtain ⟨hosts, hhosts, hall⟩ := evalBlocks_ok hresult
        obtain ⟨index, hindex, rfl⟩ := List.getElem_of_mem hblock
        have hlength := hall.length_eq
        have heval := hall.get (by omega) (by omega)
        refine HostBlock.complete_of_pollable heval (hreading.ok targets hresult _ ?_)
        simp [hhosts, rtgtargetsCreate]
  · intro hblocks conf
    rw [rtgtargetsParse_blocks]
    split
    · exact readOldStyleTargets_pollable unspecified file conf
    · exact evalBlocks_pollable hblocks

/-! ## Files that lack strings -/

def bareFile : File := some "host a \x7b snmpver 2; target 1.3 \x7b bits 32; \x7d; \x7d;".toList

/-- The host of `bareFile`, without a community, and with a row without a
table. -/
def bareHost : Queryhost where
  host := some (CString.ofString "a")
  community := none
  snmpver := 2
  rows := [{ queryrowCreate with oid := some (CString.ofString "1.3"), bits := 32 }]

def tablelessFile : File :=
  some "host a \x7b community c; target 1.3 \x7b \x7d; target 1.4 \x7b \x7d; \x7d;".toList

/-- A host without a community is returned, and its poll measures the length of
`NULL`; two targets without tables are compared while they are read. -/
theorem bare_host_not_pollable :
    rtgtargetsParse ⟨0, fun _ => 0⟩ bareFile defaultRtgconf =
        .ok { hosts := [bareHost], ntargets := 1 } ∧
      getClinserts (fun _ _ _ => some ()) (fun _ => none) bareHost 3 = .error .nullString ∧
      rtgtargetsParse ⟨0, fun _ => 0⟩ tablelessFile defaultRtgconf = .error .nullString ∧
      ¬ GivesPollable (rtgtargetsParse ⟨0, fun _ => 0⟩ bareFile defaultRtgconf) := by
  have hread : rtgtargetsParse ⟨0, fun _ => 0⟩ bareFile defaultRtgconf =
      .ok { hosts := [bareHost], ntargets := 1 } := by decide +kernel
  refine ⟨hread, rfl, by decide +kernel, fun hpollable => ?_⟩
  have hcommunity := (hpollable.ok _ hread bareHost List.mem_cons_self).community
  cases hcommunity

end ClusteredPoller.Targets
