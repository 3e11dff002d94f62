import ClusteredPoller.Targets.CopyJoin
import Mathlib.Logic.Function.Basic

/-!
# Caches by host name and OID

Where names and OIDs are distinct, the caches are a function of the two.  A
sample that is stored changes the function at one key; a reload keeps it at the
keys that are still there, and whatever is new has no cache.
-/

namespace ClusteredPoller.Targets

open Poller
open Library.Outcome (bind_eq_ok foldlM_keeps)

/-- What `rtgtargets_copy_cache` finds a row by: its host's name and its OID. -/
abbrev CacheKey := Option CString × Option CString

def keyOf (host : Queryhost) (row : Queryrow) : CacheKey := (host.host, row.oid)

def cacheOf (row : Queryrow) : Cache := ⟨row.cachedTime, row.cachedCounter⟩

/-- The caches of `queryrow_create`. -/
def noCache : Cache := ⟨0, 0⟩

/-- The rows as a table of caches. -/
def cacheTable (hosts : List Queryhost) : List (CacheKey × Cache) :=
  hosts.flatMap fun host => host.rows.map fun row => (keyOf host row, cacheOf row)

/-- Names and OIDs are there and distinct. -/
structure Keyed (hosts : List Queryhost) : Prop where
  names : (hosts.map Queryhost.host).Nodup
  oids : ∀ host ∈ hosts, (host.rows.map Queryrow.oid).Nodup
  named : AllNamed (hosts.map shapeOf)

instance (targets : Rtgtargets) : Decidable (DistinctTargets targets) :=
  decidable_of_iff ((targets.hosts.map Queryhost.host).Nodup ∧
      ∀ host ∈ targets.hosts, (host.rows.map Queryrow.oid).Nodup)
    ⟨fun both => ⟨both.1, both.2⟩, fun distinct => ⟨distinct.names, distinct.oids⟩⟩

theorem Keyed.of_shapes {hosts others : List Queryhost} (keyed : Keyed hosts)
    (hshapes : others.map shapeOf = hosts.map shapeOf) : Keyed others := by
  have hnames : others.map Queryhost.host = hosts.map Queryhost.host := by
    have hfirst := congrArg (List.map Prod.fst) hshapes
    simpa [Function.comp_def, shapeOf] using hfirst
  refine ⟨hnames ▸ keyed.names, fun host hhost => ?_, hshapes ▸ keyed.named⟩
  have hmem : shapeOf host ∈ hosts.map shapeOf := hshapes ▸ List.mem_map_of_mem hhost
  obtain ⟨other, hother, hsame⟩ := List.mem_map.mp hmem
  have hoids : other.rows.map Queryrow.oid = host.rows.map Queryrow.oid := congrArg Prod.snd hsame
  exact hoids ▸ keyed.oids other hother

/-- The keys of the table are in the names and OIDs. -/
theorem cacheTable_keys (hosts : List Queryhost) :
    (cacheTable hosts).map Prod.fst =
      (hosts.map shapeOf).flatMap fun shape => shape.2.map (Prod.mk shape.1) := by
  simp [cacheTable, List.map_flatMap, List.flatMap_map, shapeOf, keyOf, Function.comp_def]

theorem Keyed.keys_nodup {hosts : List Queryhost} (keyed : Keyed hosts) :
    ((cacheTable hosts).map Prod.fst).Nodup := by
  rw [cacheTable, List.map_flatMap, List.nodup_flatMap]
  constructor
  · intro host hhost
    have hoids := keyed.oids host hhost
    rw [List.map_map]
    refine List.Nodup.of_map Prod.snd ?_
    rw [List.map_map]
    exact hoids
  · have hnames := keyed.names
    rw [List.Nodup, List.pairwise_map] at hnames
    refine hnames.imp fun hne => ?_
    simp only [Function.onFun, List.map_map]
    intro key hfirst hsecond
    obtain ⟨row, -, rfl⟩ := List.mem_map.mp hfirst
    obtain ⟨other, -, hsame⟩ := List.mem_map.mp hsecond
    exact hne (congrArg Prod.fst hsame).symm

/-! ## A sample is stored -/

/-- A row is replaced. -/
def replaceRow (hosts : List Queryhost) (host number : Nat) (row : Queryrow) : List Queryhost :=
  hosts.modify host fun target => { target with rows := target.rows.set number row }

section Replace

variable {hosts : List Queryhost} {host number : Nat} {target : Queryhost} {row row' : Queryrow}

/-- The replaced row between those before and those behind it. -/
theorem replaceRow_split (htarget : hosts[host]? = some target)
    (hrow : target.rows[number]? = some row) :
    ∃ before after rowsBefore rowsAfter,
      hosts = before ++ { target with rows := rowsBefore ++ row :: rowsAfter } :: after ∧
        replaceRow hosts host number row' =
          before ++ { target with rows := rowsBefore ++ row' :: rowsAfter } :: after := by
  obtain ⟨hhost, hget⟩ := List.getElem?_eq_some_iff.mp htarget
  obtain ⟨hnumber, hgetRow⟩ := List.getElem?_eq_some_iff.mp hrow
  obtain ⟨before, found, after, hsplit, hlength, hmodify⟩ :=
    List.exists_of_modify
      (fun target : Queryhost => { target with rows := target.rows.set number row' }) hhost
  obtain ⟨rowsBefore, rowsAfter, hrows, -, hset⟩ :=
    @List.exists_of_set _ number row' target.rows hnumber
  have hfound : found = target := by
    rw [← hget]
    simp [hsplit, ← hlength]
  subst hfound
  refine ⟨before, after, rowsBefore, rowsAfter, ?_, ?_⟩
  · rw [← hgetRow, ← hrows, hsplit]
  · rw [replaceRow, hmodify, hset]

/-- A stored sample changes one entry of the table, and no name or OID. -/
theorem replaceRow_table (htarget : hosts[host]? = some target)
    (hrow : target.rows[number]? = some row) (hoid : row'.oid = row.oid) :
    (replaceRow hosts host number row').map shapeOf = hosts.map shapeOf ∧
      ∃ before after, cacheTable hosts = before ++ (keyOf target row, cacheOf row) :: after ∧
        cacheTable (replaceRow hosts host number row') =
          before ++ (keyOf target row, cacheOf row') :: after := by
  obtain ⟨before, after, rowsBefore, rowsAfter, hhosts, hreplaced⟩ :=
    @replaceRow_split hosts host number target row row' htarget hrow
  constructor
  · rw [hreplaced, hhosts]
    simp [shapeOf, hoid]
  · refine ⟨cacheTable before ++ rowsBefore.map fun row => (keyOf target row, cacheOf row),
      (rowsAfter.map fun row => (keyOf target row, cacheOf row)) ++ cacheTable after, ?_, ?_⟩
    · rw [hhosts]
      simp [cacheTable, keyOf]
    · rw [hreplaced]
      simp [cacheTable, keyOf, hoid]

end Replace

/-! ## A reload -/

theorem exists_of_mem_right {α β : Type} {Rel : α → β → Prop} {firsts : List α} {seconds : List β}
    (hall : List.Forall₂ Rel firsts seconds) {second : β} (hmem : second ∈ seconds) :
    ∃ first ∈ firsts, Rel first second := by
  obtain ⟨index, hindex, rfl⟩ := List.getElem_of_mem hmem
  have hbound : index < firsts.length := hall.length_eq ▸ hindex
  exact ⟨firsts[index], List.getElem_mem hbound, hall.get hbound hindex⟩

/-- Rows that have just been read have no caches. -/
def Uncached (hosts : List Queryhost) : Prop :=
  ∀ host ∈ hosts, ∀ row ∈ host.rows, cacheOf row = noCache

theorem mem_cacheTable {hosts : List Queryhost} {entry : CacheKey × Cache} :
    entry ∈ cacheTable hosts ↔
      ∃ host ∈ hosts, ∃ row ∈ host.rows, (keyOf host row, cacheOf row) = entry := by
  simp [cacheTable]

section Join

variable {dest src : List Queryhost}

theorem joinHost_shape (host other : Queryhost) : shapeOf (joinHost host other) = shapeOf host :=
  congrArg (Prod.mk host.host) (joinRows_oids host.rows other.rows)

theorem joinHosts_shapes (dest src : List Queryhost) :
    (joinHosts dest src).map shapeOf = dest.map shapeOf := by
  induction src generalizing dest with
  | nil => rfl
  | cons other src ih =>
      refine (ih _).trans ?_
      rw [Library.Join.changeFirst]
      cases Library.Join.place Queryhost.host Queryhost.host dest other with
      | none => rfl
      | some index =>
          have hkeep : ∀ host, shapeOf (joinHost host other) = id (shapeOf host) := fun host =>
            joinHost_shape host other
          dsimp only
          rw [Library.Grouping.map_modify hkeep, List.modify_id]

/-- The row of a host and OID of the source gives its caches; the rows that the
source does not have stay as they were. -/
theorem joinHosts_table (hdest : Keyed dest) (hsrc : Keyed src) (huncached : Uncached dest)
    {entry : CacheKey × Cache} (hentry : entry ∈ cacheTable (joinHosts dest src)) :
    entry ∈ cacheTable src ∨ (entry.1 ∉ (cacheTable src).map Prod.fst ∧ entry.2 = noCache) := by
  obtain ⟨result, hresult, row, hrow, rfl⟩ := mem_cacheTable.mp hentry
  obtain ⟨host, hhost, joined⟩ := exists_of_mem_right
    (joinHosts_forall₂ hdest.names hsrc.names hdest.oids hsrc.oids) hresult
  by_cases hother : ∃ other ∈ src, other.host = host.host
  · obtain ⟨other, hother, hsame⟩ := hother
    obtain ⟨rows, rfl, hrows⟩ := joined.found other hother hsame
    obtain ⟨old, hold, rowJoined⟩ := exists_of_mem_right hrows hrow
    by_cases hfound : ∃ source ∈ other.rows, source.oid = old.oid
    · obtain ⟨source, hsource, hoid⟩ := hfound
      refine Or.inl (mem_cacheTable.mpr ⟨other, hother, source, hsource, ?_⟩)
      rw [rowJoined.found source hsource hoid]
      simp [keyOf, cacheOf, hsame, hoid]
    · have hmissing : ∀ source ∈ other.rows, source.oid ≠ old.oid := fun source hsource hoid =>
        hfound ⟨source, hsource, hoid⟩
      rw [rowJoined.missing hmissing]
      refine Or.inr ⟨fun hkey => ?_, huncached host hhost old hold⟩
      obtain ⟨found, hfoundEntry, hfoundKey⟩ := List.mem_map.mp hkey
      obtain ⟨again, hagain, source, hsource, rfl⟩ := mem_cacheTable.mp hfoundEntry
      have hname : again.host = other.host := (congrArg Prod.fst hfoundKey).trans hsame.symm
      have heq : again = other := List.inj_on_of_nodup_map hsrc.names hagain hother hname
      exact hmissing source (heq ▸ hsource) (congrArg Prod.snd hfoundKey)
  · have hmissing : ∀ other ∈ src, other.host ≠ host.host := fun other hmem hsame =>
      hother ⟨other, hmem, hsame⟩
    have hstays := joined.missing hmissing
    subst hstays
    refine Or.inr ⟨fun hkey => ?_, huncached result hhost row hrow⟩
    obtain ⟨found, hfoundEntry, hfoundKey⟩ := List.mem_map.mp hkey
    obtain ⟨again, hagain, source, -, rfl⟩ := mem_cacheTable.mp hfoundEntry
    exact hmissing again hagain (congrArg Prod.fst hfoundKey)

end Join

/-! ## Targets that have just been read -/

theorem evalRow_uncached {conf : Rtgconf} {oid : CString} {directives : List RowDirective}
    {row : Queryrow} (heval : evalRow conf oid directives = .ok row) : cacheOf row = noCache := by
  refine @foldlM_keeps _ _ _ (fun row => cacheOf row = noCache) _ _ _ _ ?_ rfl heval
  intro state directive next hstate hnext
  cases directive with
  | bits value =>
      cases hnext
      exact hstate
  | table text =>
      obtain ⟨table, -, hnext⟩ := bind_eq_ok.mp hnext
      cases hnext
      exact hstate
  | id value =>
      cases hnext
      exact hstate
  | speed maxCounterDiff =>
      simp only [RowDirective.apply] at hnext
      split_ifs at hnext <;> cases hnext <;> exact hstate
  | other =>
      cases hnext
      exact hstate

theorem HostBlock.eval_uncached {conf : Rtgconf} {block : HostBlock} {host : Queryhost}
    (heval : block.eval conf = .ok host) : ∀ row ∈ host.rows, cacheOf row = noCache := by
  refine @foldlM_keeps _ _ _ (fun host : Queryhost => ∀ row ∈ host.rows, cacheOf row = noCache)
    _ _ _ _ ?_ (fun _ hrow => (List.not_mem_nil hrow).elim) heval
  intro state item next hstate hnext
  cases HostItem.applied hnext with
  | community text => exact hstate
  | snmpver value => exact hstate
  | target hrow hadd =>
      rcases addTarget_cases hadd with ⟨rfl, -⟩ | ⟨rfl, -⟩
      · exact hstate
      · intro row hmem
        rcases List.mem_append.mp hmem with hmem | hmem
        · exact hstate row hmem
        · rw [List.mem_singleton.mp hmem]
          exact evalRow_uncached hrow

theorem oldTargets_uncached (speed : UInt64) (records : List Fields) :
    Uncached (oldTargets speed records).hosts := by
  intro host hhost row hrow
  obtain ⟨group, -, rfl⟩ := List.mem_map.mp hhost
  obtain ⟨fields, -, rfl⟩ := List.mem_map.mp hrow
  rfl

theorem rtgtargetsParse_uncached {unspecified : Unspecified} {file : File} {conf : Rtgconf}
    {targets : Rtgtargets} (hparse : rtgtargetsParse unspecified file conf = .ok targets) :
    Uncached targets.hosts := by
  rw [rtgtargetsParse_blocks] at hparse
  split at hparse
  · obtain ⟨speed, rfl⟩ := readOldStyleTargets_ok hparse
    exact oldTargets_uncached speed _
  · obtain ⟨hosts, hhosts, hall⟩ := evalBlocks_ok hparse
    intro host hhost
    rw [hhosts] at hhost
    obtain ⟨block, -, heval⟩ := exists_of_mem_right hall hhost
    exact block.eval_uncached heval

theorem rtgtargetsParse_keyed {unspecified : Unspecified} {file : File} {conf : Rtgconf}
    {targets : Rtgtargets} (hparse : rtgtargetsParse unspecified file conf = .ok targets)
    (hdistinct : DistinctTargets targets) : Keyed targets.hosts := by
  refine ⟨hdistinct.names, hdistinct.oids, fun shape hshape => ?_⟩
  obtain ⟨host, hhost, rfl⟩ := List.mem_map.mp hshape
  have hnamed := rtgtargetsParse_named hparse host hhost
  refine ⟨hnamed.name, fun oid hoid => ?_⟩
  obtain ⟨row, hrow, rfl⟩ := List.mem_map.mp hoid
  exact hnamed.oids row hrow

end ClusteredPoller.Targets
