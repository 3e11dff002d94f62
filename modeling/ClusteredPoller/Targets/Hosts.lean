import ClusteredPoller.Targets.Blocks
import ClusteredPoller.Targets.OldStyle
import ClusteredPoller.Targets.Rows

/-!
# The hosts of a new-style targets file

What the blocks of a file make of each host that they give: its name, its rows
and what these have in common.
-/

namespace ClusteredPoller.Targets

open Poller
open Library.Outcome (bind_eq_ok ok_bind foldlM_keeps)

/-- The blocks of a file; one that cannot be opened has none. -/
def fileBlocks (unspecified : Unspecified) (file : File) : List HostBlock :=
  file.elim [] (hostBlocks unspecified)

def HostItem.isTarget : HostItem → Bool
  | .target _ _ => true
  | _ => false

def HostBlock.hasTarget (block : HostBlock) : Bool := block.items.any HostItem.isTarget

/-! ## Rows -/

/-- A row that has just been read. -/
structure FreshRow (oid : CString) (row : Queryrow) : Prop where
  oid : row.oid = some oid
  time : row.cachedTime = 0

theorem evalRow_fresh {conf : Rtgconf} {oid : CString} {directives : List RowDirective}
    {row : Queryrow} (heval : evalRow conf oid directives = .ok row) : FreshRow oid row := by
  refine @foldlM_keeps _ _ _ (FreshRow oid) _ _ _ _ ?_ ⟨rfl, rfl⟩ heval
  intro state directive next hstate hnext
  cases directive with
  | bits value =>
      cases hnext
      exact ⟨hstate.oid, hstate.time⟩
  | table text =>
      obtain ⟨table, -, hnext⟩ := bind_eq_ok.mp hnext
      cases hnext
      exact ⟨hstate.oid, hstate.time⟩
  | id value =>
      cases hnext
      exact ⟨hstate.oid, hstate.time⟩
  | speed maxCounterDiff =>
      simp only [RowDirective.apply] at hnext
      split_ifs at hnext <;> cases hnext <;> exact ⟨hstate.oid, hstate.time⟩
  | other =>
      cases hnext
      exact hstate

theorem checkForDuplicate_new {rows : List Queryrow} {row : Queryrow}
    (hcheck : checkForDuplicate rows row = .ok false) :
    ∀ earlier ∈ rows, earlier.oid ≠ row.oid := by
  induction rows with
  | nil => simp
  | cons earlier rows ih =>
      rw [checkForDuplicate] at hcheck
      obtain ⟨equal, hequal, hcheck⟩ := bind_eq_ok.mp hcheck
      cases equal with
      | true => cases hcheck
      | false =>
          obtain ⟨sameTable, -, hcheck⟩ := bind_eq_ok.mp hcheck
          split at hcheck
          · cases hcheck
          · refine List.forall_mem_cons.mpr ⟨fun heq => ?_, ih hcheck⟩
            rw [heq] at hequal
            cases hoid : row.oid <;> simp [hoid, strcmpEqual] at hequal

/-- A target is dropped or becomes the last row; the first is never dropped. -/
theorem addTarget_cases {host next : Queryhost} {row : Queryrow}
    (hadd : addTarget host row = .ok next) :
    (next = host ∧ host.rows ≠ []) ∨
      (next = pushRow host row ∧ ∀ earlier ∈ host.rows, earlier.oid ≠ row.oid) := by
  obtain ⟨duplicate, hcheck, hnext⟩ := bind_eq_ok.mp hadd
  cases duplicate with
  | true =>
      cases hnext
      refine Or.inl ⟨rfl, fun hempty => ?_⟩
      rw [hempty] at hcheck
      cases hcheck
  | false =>
      cases hnext
      exact Or.inr ⟨rfl, checkForDuplicate_new hcheck⟩

/-! ## Hosts -/

/-- A host that has just been read. -/
structure FreshHost (name : CString) (host : Queryhost) : Prop where
  named : host.host = some name
  rows : ∀ row ∈ host.rows, row.oid.isSome ∧ row.cachedTime = 0
  distinct : (host.rows.map Queryrow.oid).Nodup

theorem FreshHost.push {name oid : CString} {host : Queryhost} {row : Queryrow}
    (hhost : FreshHost name host) (hrow : FreshRow oid row)
    (hnew : ∀ earlier ∈ host.rows, earlier.oid ≠ row.oid) :
    FreshHost name (pushRow host row) := by
  constructor
  · exact hhost.named
  · intro other hother
    rcases List.mem_append.mp hother with hother | hother
    · exact hhost.rows other hother
    · rw [List.mem_singleton.mp hother]
      exact ⟨by simp [hrow.oid], hrow.time⟩
  · have hdistinct := hhost.distinct
    simp only [pushRow, List.map_append, List.map_singleton]
    refine List.nodup_append.mpr ⟨hdistinct, List.nodup_singleton _, ?_⟩
    intro earlier hearlier other hother
    obtain ⟨found, hfound, rfl⟩ := List.mem_map.mp hearlier
    rw [List.mem_singleton.mp hother]
    exact hnew found hfound

theorem HostItem.apply_fresh {conf : Rtgconf} {name : CString} {host next : Queryhost}
    {item : HostItem} (hhost : FreshHost name host) (happly : item.apply conf host = .ok next) :
    FreshHost name next ∧ (next.rows = [] ↔ host.rows = [] ∧ item.isTarget = false) := by
  cases HostItem.applied happly with
  | community text =>
      exact ⟨⟨hhost.named, hhost.rows, hhost.distinct⟩, by simp [HostItem.isTarget]⟩
  | snmpver value =>
      exact ⟨⟨hhost.named, hhost.rows, hhost.distinct⟩, by simp [HostItem.isTarget]⟩
  | target hrow hadd =>
      rcases addTarget_cases hadd with ⟨rfl, hne⟩ | ⟨rfl, hnew⟩
      · exact ⟨hhost, by simp [HostItem.isTarget, hne]⟩
      · exact ⟨hhost.push (evalRow_fresh hrow) hnew, by simp [HostItem.isTarget, pushRow]⟩

/-- An item leaves the name and the rows that are there. -/
theorem HostItem.apply_keeps {conf : Rtgconf} {host next : Queryhost} {item : HostItem}
    (happly : item.apply conf host = .ok next) :
    next.host = host.host ∧ ∀ row ∈ host.rows, row ∈ next.rows := by
  cases HostItem.applied happly with
  | community text => exact ⟨rfl, fun row hrow => hrow⟩
  | snmpver value => exact ⟨rfl, fun row hrow => hrow⟩
  | target hrow hadd =>
      rcases addTarget_cases hadd with ⟨rfl, -⟩ | ⟨rfl, -⟩
      · exact ⟨rfl, fun row hrow => hrow⟩
      · exact ⟨rfl, fun row hrow => List.mem_append_left _ hrow⟩

theorem items_keep {conf : Rtgconf} {items : List HostItem} {host final : Queryhost}
    (hrun : items.foldlM (HostItem.apply conf) host = .ok final) :
    final.host = host.host ∧ ∀ row ∈ host.rows, row ∈ final.rows := by
  refine @foldlM_keeps _ _ _ (fun state : Queryhost => state.host = host.host ∧
    ∀ row ∈ host.rows, row ∈ state.rows) _ _ _ _ ?_ ⟨rfl, fun row hrow => hrow⟩ hrun
  intro state item next hstate hnext
  obtain ⟨hname, hrows⟩ := HostItem.apply_keeps hnext
  exact ⟨hname.trans hstate.1, fun row hrow => hrows row (hstate.2 row hrow)⟩

/-- A host has rows exactly if its block has a target. -/
theorem HostBlock.eval_fresh {conf : Rtgconf} {block : HostBlock} {host : Queryhost}
    (heval : block.eval conf = .ok host) :
    FreshHost block.name host ∧ (host.rows = [] ↔ block.hasTarget = false) := by
  have hitems : ∀ (items : List HostItem) (start : Queryhost), FreshHost block.name start →
      items.foldlM (HostItem.apply conf) start = .ok host →
        FreshHost block.name host ∧
          (host.rows = [] ↔ start.rows = [] ∧ items.any HostItem.isTarget = false) := by
    intro items
    induction items with
    | nil =>
        intro start hstart hrun
        cases hrun
        exact ⟨hstart, by simp⟩
    | cons item items ih =>
        intro start hstart hrun
        rw [List.foldlM_cons] at hrun
        obtain ⟨next, hnext, hrest⟩ := bind_eq_ok.mp hrun
        obtain ⟨hfresh, hempty⟩ := item.apply_fresh hstart hnext
        obtain ⟨hhost, hrows⟩ := ih next hfresh hrest
        exact ⟨hhost, by simp [hrows, hempty, and_assoc]⟩
  have hstart : FreshHost block.name { queryhostCreate with host := some block.name } := by
    constructor
    · rfl
    · simp [queryhostCreate]
    · simp [queryhostCreate]
  obtain ⟨hhost, hrows⟩ := hitems block.items _ hstart heval
  exact ⟨hhost, by simpa [queryhostCreate, HostBlock.hasTarget] using hrows⟩

/-! ## Files -/

/-- Each block gives a host. -/
theorem evalBlocks_ok {conf : Rtgconf} {targets final : Rtgtargets} {blocks : List HostBlock}
    (heval : evalBlocks conf targets blocks = .ok final) :
    ∃ hosts, final.hosts = targets.hosts ++ hosts ∧
      List.Forall₂ (fun block host => HostBlock.eval conf block = .ok host) blocks hosts := by
  induction blocks generalizing targets with
  | nil =>
      cases heval
      exact ⟨[], by simp, List.Forall₂.nil⟩
  | cons block blocks ih =>
      rw [evalBlocks, List.foldlM_cons, bind_assoc] at heval
      obtain ⟨host, hhost, hrest⟩ := bind_eq_ok.mp heval
      obtain ⟨hosts, hfinal, hall⟩ := ih hrest
      exact ⟨host :: hosts, by simp [hfinal, Rtgtargets.pushHost], List.Forall₂.cons hhost hall⟩

theorem readNewStyleTargets_blocks (unspecified : Unspecified) (file : File) (conf : Rtgconf) :
    readNewStyleTargets unspecified file conf =
      evalBlocks conf rtgtargetsCreate (fileBlocks unspecified file) := by
  cases file with
  | none => rfl
  | some text => exact readNewStyleTargets_eq text

/-- A file with a block is a new-style file, and any other an old-style one. -/
theorem rtgtargetsParse_blocks (unspecified : Unspecified) (file : File) (conf : Rtgconf) :
    rtgtargetsParse unspecified file conf =
      if fileBlocks unspecified file = [] then readOldStyleTargets unspecified file conf
      else evalBlocks conf rtgtargetsCreate (fileBlocks unspecified file) := by
  rw [rtgtargetsParse, readNewStyleTargets_blocks]
  cases heval : evalBlocks conf rtgtargetsCreate (fileBlocks unspecified file) with
  | error fault =>
      rw [if_neg]
      · rfl
      · intro hblocks
        rw [hblocks] at heval
        cases heval
  | ok targets =>
      obtain ⟨hosts, hhosts, hall⟩ := evalBlocks_ok heval
      have hlength := hall.length_eq
      simp only [rtgtargetsCreate, List.nil_append] at hhosts
      rw [ok_bind, hhosts, ← hlength]
      by_cases hblocks : fileBlocks unspecified file = []
      · simp [hblocks]
      · simp only [List.length_eq_zero_iff, hblocks, if_false]
        rfl

end ClusteredPoller.Targets
