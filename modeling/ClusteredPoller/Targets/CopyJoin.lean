import ClusteredPoller.Library.Join
import ClusteredPoller.Targets.Reload

/-!
# Copying caches is a join

`rtgtargets_copy_cache` changes the first host with a name and in it the first
row with an OID.  Where names and OIDs are distinct, this joins the two sets of
targets: each row takes the caches of the row with its host and OID, and what
has no counterpart stays as it is.
-/

namespace ClusteredPoller.Targets

open Poller
open Library.Outcome (ok_bind bind_eq_ok)
open Library.Join (changeFirst changeFirst_keys changeFirst_keeps changeAll changeAll_eq_map
  changeAll_keeps joined_found joined_missing joined_joined)

/-- Host names are distinct, and OIDs within a host. -/
structure DistinctTargets (targets : Rtgtargets) : Prop where
  names : (targets.hosts.map Queryhost.host).Nodup
  oids : ∀ host ∈ targets.hosts, (host.rows.map Queryrow.oid).Nodup

/-- The host has a name and its rows have OIDs. -/
structure NamedHost (host : Queryhost) : Prop where
  name : host.host.isSome
  oids : ∀ row ∈ host.rows, row.oid.isSome

def NamedTargets (targets : Rtgtargets) : Prop := ∀ host ∈ targets.hosts, NamedHost host

/-- A row takes both caches of the source row with its OID, or stays. -/
structure RowJoin (src : List Queryrow) (row result : Queryrow) : Prop where
  found : ∀ other ∈ src, other.oid = row.oid →
    result = { row with cachedTime := other.cachedTime, cachedCounter := other.cachedCounter }
  missing : (∀ other ∈ src, other.oid ≠ row.oid) → result = row

/-- The rows of a host are joined with those of the source host with its name,
or the host stays. -/
structure HostJoin (src : List Queryhost) (host result : Queryhost) : Prop where
  found : ∀ other ∈ src, other.host = host.host →
    ∃ rows, result = { host with rows := rows } ∧
      List.Forall₂ (RowJoin other.rows) host.rows rows
  missing : (∀ other ∈ src, other.host ≠ host.host) → result = host

/-- The hosts one by one, and their number of rows as it was. -/
structure CacheJoin (dest src result : Rtgtargets) : Prop where
  hosts : List.Forall₂ (HostJoin src.hosts) dest.hosts result.hosts
  ntargets : result.ntargets = dest.ntargets

/-! ## Rows -/

/-- What the loop over the rows of a source host does to a host's rows. -/
def joinRows (dest src : List Queryrow) : List Queryrow :=
  changeAll Queryrow.oid Queryrow.oid copyCache dest src

theorem copyRows_ok {dest src result : List Queryrow} (hcopy : copyRows dest src = .ok result) :
    result = joinRows dest src := by
  induction src generalizing dest with
  | nil =>
      cases hcopy
      rfl
  | cons row src ih =>
      obtain ⟨found, hfound, hrest⟩ := bind_eq_ok.mp hcopy
      have hturn : joinRows dest (row :: src) =
          joinRows (changeFirst Queryrow.oid Queryrow.oid copyCache dest row) src := rfl
      rw [rtgtargetsFindRow_eq] at hfound
      rw [hturn, changeFirst, Library.Join.place, ← findString_ok hfound]
      cases found with
      | none => exact ih hrest
      | some index => exact ih hrest

theorem copyCache_oid (row src : Queryrow) : (copyCache row src).oid = row.oid := rfl

theorem copyCache_named (row src : Queryrow) (hoid : row.oid.isSome) :
    (copyCache row src).oid.isSome := hoid

theorem copyRows_named {dest src : List Queryrow} (hdest : ∀ row ∈ dest, row.oid.isSome)
    (hsrc : ∀ row ∈ src, row.oid.isSome) : ∃ result, copyRows dest src = .ok result := by
  induction src generalizing dest with
  | nil => exact ⟨dest, rfl⟩
  | cons row src ih =>
      obtain ⟨hrow, hrest⟩ := List.forall_mem_cons.mp hsrc
      have hchanged : ∀ other ∈ changeFirst Queryrow.oid Queryrow.oid copyCache dest row,
          other.oid.isSome := changeFirst_keeps copyCache_named hdest row
      rw [changeFirst, Library.Join.place] at hchanged
      rw [copyRows, rtgtargetsFindRow_named hrow hdest, ok_bind]
      cases hfind : dest.findIdx? fun other => decide (row.oid = other.oid) with
      | none => exact ih hdest hrest
      | some index =>
          rw [hfind] at hchanged
          exact ih hchanged hrest

theorem joinRows_oids (dest src : List Queryrow) :
    (joinRows dest src).map Queryrow.oid = dest.map Queryrow.oid := by
  induction src generalizing dest with
  | nil => rfl
  | cons row src ih => exact (ih _).trans (changeFirst_keys copyCache_oid dest row)

section Distinct

variable {dest src : List Queryrow} (hdest : (dest.map Queryrow.oid).Nodup)
  (hsrc : (src.map Queryrow.oid).Nodup)

include hdest hsrc

theorem joinRows_forall₂ : List.Forall₂ (RowJoin src) dest (joinRows dest src) := by
  rw [joinRows, changeAll_eq_map copyCache_oid hdest hsrc, List.forall₂_map_right_iff]
  refine List.forall₂_same.mpr fun row _ => ⟨fun other hother hsame => ?_, fun hmissing => ?_⟩
  · exact joined_found hsrc hother hsame
  · exact joined_missing hmissing

theorem joinRows_again : joinRows (joinRows dest src) src = joinRows dest src := by
  have hkept : ((joinRows dest src).map Queryrow.oid).Nodup := (joinRows_oids dest src).symm ▸ hdest
  rw [joinRows, changeAll_eq_map copyCache_oid hkept hsrc, joinRows,
    changeAll_eq_map copyCache_oid hdest hsrc, List.map_map]
  refine List.map_congr_left fun row _ => ?_
  exact joined_joined copyCache_oid fun _ _ => rfl

end Distinct

/-! ## Hosts -/

/-- One host of the source copied to its counterpart. -/
def joinHost (dest src : Queryhost) : Queryhost :=
  { dest with rows := joinRows dest.rows src.rows }

def joinHosts (dest src : List Queryhost) : List Queryhost :=
  changeAll Queryhost.host Queryhost.host joinHost dest src

theorem joinHost_host (host src : Queryhost) : (joinHost host src).host = host.host := rfl

theorem modify_rows {dest : List Queryhost} {index : Nat} (src : Queryhost) :
    (dest.modify index fun host =>
        { host with rows := joinRows ((dest[index]?).elim [] Queryhost.rows) src.rows }) =
      dest.modify index fun host => joinHost host src := by
  refine List.ext_getElem? fun position => ?_
  rw [List.getElem?_modify, List.getElem?_modify]
  by_cases heq : index = position
  · subst heq
    cases hget : dest[index]? with
    | none => rfl
    | some host => rfl
  · simp only [heq, if_false]

theorem copyHosts_ok {dest src result : List Queryhost} (hcopy : copyHosts dest src = .ok result) :
    result = joinHosts dest src := by
  induction src generalizing dest with
  | nil =>
      cases hcopy
      rfl
  | cons host src ih =>
      obtain ⟨found, hfound, hrest⟩ := bind_eq_ok.mp hcopy
      have hturn : joinHosts dest (host :: src) =
          joinHosts (changeFirst Queryhost.host Queryhost.host joinHost dest host) src := rfl
      rw [rtgtargetsFindHost_eq] at hfound
      rw [hturn, changeFirst, Library.Join.place, ← findString_ok hfound]
      cases found with
      | none => exact ih hrest
      | some index =>
          obtain ⟨rows, hrows, hrest⟩ := bind_eq_ok.mp hrest
          have hresult := ih hrest
          rw [copyRows_ok hrows, modify_rows] at hresult
          exact hresult

theorem joinHosts_names (dest src : List Queryhost) :
    (joinHosts dest src).map Queryhost.host = dest.map Queryhost.host := by
  induction src generalizing dest with
  | nil => rfl
  | cons host src ih => exact (ih _).trans (changeFirst_keys joinHost_host dest host)

theorem joinHost_named {host : Queryhost} (named : NamedHost host) (src : Queryhost) :
    NamedHost (joinHost host src) :=
  ⟨named.name, changeAll_keeps copyCache_named named.oids src.rows⟩

theorem copyHosts_named {dest src : List Queryhost} (hdest : ∀ host ∈ dest, NamedHost host)
    (hsrc : ∀ host ∈ src, NamedHost host) : ∃ result, copyHosts dest src = .ok result := by
  induction src generalizing dest with
  | nil => exact ⟨dest, rfl⟩
  | cons host src ih =>
      obtain ⟨hhost, hrest⟩ := List.forall_mem_cons.mp hsrc
      have hchanged : ∀ other ∈ changeFirst Queryhost.host Queryhost.host joinHost dest host,
          NamedHost other :=
        changeFirst_keeps (fun other source named => joinHost_named named source) hdest host
      rw [changeFirst, Library.Join.place] at hchanged
      rw [copyHosts, rtgtargetsFindHost_named hhost.name fun other hother =>
        (hdest other hother).name, ok_bind]
      cases hfind : dest.findIdx? fun other => decide (host.host = other.host) with
      | none => exact ih hdest hrest
      | some index =>
          rw [hfind] at hchanged
          have hoids : ∀ row ∈ (dest[index]?).elim [] Queryhost.rows, row.oid.isSome := by
            cases hget : dest[index]? with
            | none => simp
            | some found => exact (hdest found (List.mem_of_getElem? hget)).oids
          obtain ⟨rows, hcopied⟩ := copyRows_named hoids hhost.oids
          simp only [hcopied, ok_bind]
          apply ih _ hrest
          rw [copyRows_ok hcopied, modify_rows]
          exact hchanged

section Distinct

variable {dest src : List Queryhost} (hdest : (dest.map Queryhost.host).Nodup)
  (hsrc : (src.map Queryhost.host).Nodup)
  (hdestRows : ∀ host ∈ dest, (host.rows.map Queryrow.oid).Nodup)
  (hsrcRows : ∀ host ∈ src, (host.rows.map Queryrow.oid).Nodup)

include hdest hsrc hdestRows hsrcRows

theorem joinHosts_forall₂ : List.Forall₂ (HostJoin src) dest (joinHosts dest src) := by
  rw [joinHosts, changeAll_eq_map joinHost_host hdest hsrc, List.forall₂_map_right_iff]
  refine List.forall₂_same.mpr fun host hhost => ⟨fun other hother hsame => ?_, joined_missing⟩
  rw [joined_found hsrc hother hsame]
  exact ⟨_, rfl, joinRows_forall₂ (hdestRows host hhost) (hsrcRows other hother)⟩

theorem joinHosts_again : joinHosts (joinHosts dest src) src = joinHosts dest src := by
  have hkept : ((joinHosts dest src).map Queryhost.host).Nodup :=
    (joinHosts_names dest src).symm ▸ hdest
  rw [joinHosts, changeAll_eq_map joinHost_host hkept hsrc, joinHosts,
    changeAll_eq_map joinHost_host hdest hsrc, List.map_map]
  refine List.map_congr_left fun host hhost => ?_
  refine joined_joined joinHost_host fun other hother => ?_
  rw [joinHost, joinHost, joinRows_again (hdestRows host hhost) (hsrcRows other hother)]

end Distinct

/-! ## Whole sets of targets -/

theorem rtgtargetsCopyCache_ok {dest src result : Rtgtargets}
    (hcopy : rtgtargetsCopyCache dest src = .ok result) :
    result = { dest with hosts := joinHosts dest.hosts src.hosts } := by
  obtain ⟨hosts, hhosts, hresult⟩ := bind_eq_ok.mp hcopy
  cases hresult
  rw [copyHosts_ok hhosts]

theorem rtgtargetsCopyCache_named {dest src : Rtgtargets} (hdest : NamedTargets dest)
    (hsrc : NamedTargets src) :
    rtgtargetsCopyCache dest src = .ok { dest with hosts := joinHosts dest.hosts src.hosts } := by
  obtain ⟨hosts, hhosts⟩ := copyHosts_named hdest hsrc
  rw [rtgtargetsCopyCache, hhosts, ok_bind, copyHosts_ok hhosts]
  rfl

/-- The targets that `rtgtargets_parse` returns have their names and OIDs. -/
theorem rtgtargetsParse_named {unspecified : Unspecified} {file : File} {conf : Rtgconf}
    {targets : Rtgtargets} (hparse : rtgtargetsParse unspecified file conf = .ok targets) :
    NamedTargets targets := by
  have hfresh := (rtgtargetsParse_unique_iff hparse).1
  exact fun host hhost =>
    ⟨(hfresh host hhost).1, fun row hrow => ((hfresh host hhost).2 row hrow).1⟩

/-- Only what is looked for can be `NULL`, so distinct names and OIDs do not
rule it out; where no string is missing, the copy returns. -/
theorem rtgtargetsCopyCache_joins {dest src : Rtgtargets} (hdest : DistinctTargets dest)
    (hsrc : DistinctTargets src) :
    (∀ result, rtgtargetsCopyCache dest src = .ok result →
      CacheJoin dest src result ∧
        ∀ again, rtgtargetsCopyCache result src = .ok again → again = result) ∧
    (NamedTargets dest → NamedTargets src →
      ∃ result, rtgtargetsCopyCache dest src = .ok result ∧
        rtgtargetsCopyCache result src = .ok result) := by
  have hagain := joinHosts_again hdest.names hsrc.names hdest.oids hsrc.oids
  constructor
  · intro result hcopy
    rw [rtgtargetsCopyCache_ok hcopy]
    refine ⟨⟨joinHosts_forall₂ hdest.names hsrc.names hdest.oids hsrc.oids, rfl⟩, ?_⟩
    intro again hcopied
    rw [rtgtargetsCopyCache_ok hcopied, hagain]
  · intro hdestNamed hsrcNamed
    refine ⟨_, rtgtargetsCopyCache_named hdestNamed hsrcNamed, ?_⟩
    have hresult : NamedTargets { dest with hosts := joinHosts dest.hosts src.hosts } :=
      changeAll_keeps (fun host other named => joinHost_named named other) hdestNamed src.hosts
    rw [rtgtargetsCopyCache_named hresult hsrcNamed, hagain]

/-- A row with an OID of one letter and its caches. -/
def letterRow (letter : Char) (time : Int) (counter : UInt64) : Queryrow :=
  { queryrowCreate with
    oid := some (CString.ofMemory [letter])
    cachedTime := time
    cachedCounter := counter }

def letterHost (letter : Char) (rows : List Queryrow) : Queryhost :=
  { queryhostCreate with
    host := some (CString.ofMemory [letter])
    rows := rows }

/-- Two new hosts, and old ones in another order of which one is gone. -/
def newLetters : Rtgtargets where
  hosts := [letterHost 'a' [letterRow 'x' 0 0, letterRow 'y' 0 0], letterHost 'b' []]
  ntargets := 2

def oldLetters : Rtgtargets where
  hosts := [letterHost 'c' [letterRow 'x' 300 9], letterHost 'a' [letterRow 'z' 300 8,
    letterRow 'y' 300 7]]
  ntargets := 3

theorem rtgtargetsCopyCache_joins_letters :
    CacheJoin newLetters oldLetters
      { newLetters with hosts :=
          [letterHost 'a' [letterRow 'x' 0 0, letterRow 'y' 300 7], letterHost 'b' []] } := by
  obtain ⟨hjoins, -⟩ :=
    @rtgtargetsCopyCache_joins newLetters oldLetters ⟨by decide, by decide⟩ ⟨by decide, by decide⟩
  exact (hjoins _ (by decide)).1

end ClusteredPoller.Targets
