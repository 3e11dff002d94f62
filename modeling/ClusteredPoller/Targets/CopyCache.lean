import ClusteredPoller.Targets.Speeds

/-!
# Copying the caches to newly read targets

`rtgtargets_copy_cache` looks hosts up by name and rows by OID, and finds the
first of each.  Every row gets its caches back exactly if no host with rows
stands behind one of its name and no row behind one of its OID.
-/

namespace ClusteredPoller.Targets

open Poller
open Library.Grouping (map_modify modify_append_cons findIdx?_append_cons findIdx?_ne_of_earlier)
open Library.Outcome (ok_bind bind_eq_ok)

/-- The two cache fields of a row. -/
structure Cache where
  time : Int
  counter : UInt64
  deriving DecidableEq

def Queryhost.withCaches (cached : Nat → Cache) (host : Queryhost) : Queryhost :=
  { host with
    rows := host.rows.mapIdx fun index row =>
      { row with cachedTime := (cached index).time, cachedCounter := (cached index).counter } }

/-- Targets with caches given by the positions of host and row. -/
def Rtgtargets.withCaches (cached : Nat → Nat → Cache) (targets : Rtgtargets) : Rtgtargets :=
  { targets with
    hosts := targets.hosts.mapIdx fun index host => Queryhost.withCaches (cached index) host }

/-- The caches of a host copied to another one, row by row. -/
def takeCaches (dest src : Queryhost) : Queryhost :=
  { dest with rows := List.zipWith copyCache dest.rows src.rows }

/-- The host, if it has rows, does not have the name of the earlier one. -/
def FirstOfName (earlier host : Queryhost) : Prop := host.rows ≠ [] → earlier.host ≠ host.host

/-- Names and OIDs are the same. -/
structure SameShape (dest src : Queryhost) : Prop where
  host : dest.host = src.host
  oids : List.Forall₂ (fun row other => row.oid = other.oid) dest.rows src.rows

/-! ## All rows are found -/

theorem copyRows_distinct {before dest src : List Queryrow}
    (hsame : List.Forall₂ (fun row other : Queryrow => row.oid = other.oid) dest src)
    (hnamed : ∀ row ∈ before ++ dest, row.oid.isSome)
    (hdistinct : ((before ++ dest).map Queryrow.oid).Nodup) :
    copyRows (before ++ dest) src = .ok (before ++ List.zipWith copyCache dest src) := by
  induction hsame generalizing before with
  | nil => simp [copyRows]
  | @cons row other dest src hoid _ ih =>
      have hrow : row.oid.isSome := hnamed row (by simp)
      have hfind : rtgtargetsFindRow (before ++ row :: dest) other.oid =
          .ok (some before.length) := by
        rw [rtgtargetsFindRow_named (hoid ▸ hrow) hnamed]
        refine congrArg Except.ok (findIdx?_append_cons (fun earlier hearlier => ?_) ?_)
        · rw [List.map_append, List.nodup_append] at hdistinct
          have hne := hdistinct.2.2 earlier.oid (List.mem_map_of_mem hearlier) row.oid (by simp)
          simpa [← hoid] using Ne.symm hne
        · simp [hoid]
      have hnext : before ++ copyCache row other :: dest =
          (before ++ [copyCache row other]) ++ dest := by
        simp
      simp only [copyRows, hfind, ok_bind, modify_append_cons]
      rw [hnext, ih]
      · simp
      · intro later hlater
        simp only [List.append_assoc, List.singleton_append, List.mem_append,
          List.mem_cons] at hlater
        rcases hlater with hlater | rfl | hlater
        · exact hnamed later (by simp [hlater])
        · exact hrow
        · exact hnamed later (by simp [hlater])
      · simpa [copyCache] using hdistinct

/-- A host with rows is the first of its name, so that its turn finds it. -/
theorem copyHosts_turn {before dest src : List Queryhost} {host other : Queryhost}
    (hshape : SameShape host other)
    (hnamed : ∀ found ∈ before ++ host :: dest, found.host.isSome)
    (hrows : ∀ row ∈ host.rows, row.oid.isSome) (hdistinct : (host.rows.map Queryrow.oid).Nodup)
    (hearlier : ∀ earlier ∈ before, FirstOfName earlier host) :
    copyHosts (before ++ host :: dest) (other :: src) =
      copyHosts (before ++ takeCaches host other :: dest) src := by
  have hhost := hnamed host (List.mem_append_right _ List.mem_cons_self)
  simp only [copyHosts, rtgtargetsFindHost_named (hshape.host ▸ hhost) hnamed, ok_bind]
  by_cases hempty : host.rows = []
  · have hother : other.rows = [] := by
      have hlength := hshape.oids.length_eq
      simpa [hempty, List.length_eq_zero_iff, eq_comm] using hlength
    have htake : takeCaches host other = host := by
      cases host
      simp_all [takeCaches]
    rw [htake]
    split
    · next index _ =>
        simp only [hother, copyRows, ok_bind]
        refine congrArg (fun hosts => copyHosts hosts src) ?_
        refine List.ext_getElem? fun position => ?_
        rw [List.getElem?_modify]
        by_cases heq : index = position
        · subst heq
          cases hget : (before ++ host :: dest)[index]? <;> simp
        · simp [heq]
    · rfl
  · have hfind : (before ++ host :: dest).findIdx?
        (fun found => decide (other.host = found.host)) = some before.length := by
      refine findIdx?_append_cons (fun earlier hmem => ?_) (by simp [hshape.host])
      have hne := hearlier earlier hmem hempty
      simpa [← hshape.host] using Ne.symm hne
    have hcopied : copyRows host.rows other.rows =
        .ok (List.zipWith copyCache host.rows other.rows) := by
      simpa using @copyRows_distinct [] host.rows other.rows hshape.oids (by simpa using hrows)
        (by simpa using hdistinct)
    simp only [hfind, List.getElem?_append_right (Nat.le_refl _), Nat.sub_self,
      List.getElem?_cons_zero, Option.elim_some, hcopied, ok_bind, modify_append_cons]
    rfl

theorem copyHosts_distinct {before dest src : List Queryhost}
    (hsame : List.Forall₂ SameShape dest src) (hbefore : ∀ host ∈ before, host.host.isSome)
    (hnamed : ∀ host ∈ dest, host.host.isSome ∧ ∀ row ∈ host.rows, row.oid.isSome)
    (hdistinct : ∀ host ∈ dest, (host.rows.map Queryrow.oid).Nodup)
    (hearlier : ∀ earlier ∈ before, ∀ host ∈ dest, FirstOfName earlier host)
    (hfirst : dest.Pairwise FirstOfName) :
    copyHosts (before ++ dest) src = .ok (before ++ List.zipWith takeCaches dest src) := by
  induction hsame generalizing before with
  | nil => simp [copyHosts]
  | @cons host other dest src hshape _ ih =>
      obtain ⟨hfirstHost, hfirst⟩ := List.pairwise_cons.mp hfirst
      obtain ⟨hhost, hrows⟩ := hnamed host List.mem_cons_self
      have hall : ∀ found ∈ before ++ host :: dest, found.host.isSome := by
        intro found hfound
        rcases List.mem_append.mp hfound with hfound | hfound
        · exact hbefore found hfound
        · exact (hnamed found hfound).1
      have hcopy := @copyHosts_turn before dest src host other hshape hall hrows
        (hdistinct host List.mem_cons_self)
        fun earlier hmem => hearlier earlier hmem host List.mem_cons_self
      have hnext : before ++ takeCaches host other :: dest =
          (before ++ [takeCaches host other]) ++ dest := by
        simp
      rw [hcopy, hnext, ih]
      · simp
      · intro earlier hmem
        rcases List.mem_append.mp hmem with hmem | hmem
        · exact hbefore earlier hmem
        · rw [List.mem_singleton.mp hmem]
          exact hhost
      · exact fun later hlater => hnamed later (List.mem_cons_of_mem _ hlater)
      · exact fun later hlater => hdistinct later (List.mem_cons_of_mem _ hlater)
      · intro earlier hmem later hlater
        rcases List.mem_append.mp hmem with hmem | hmem
        · exact hearlier earlier hmem later (List.mem_cons_of_mem _ hlater)
        · rw [List.mem_singleton.mp hmem]
          exact hfirstHost later hlater
      · exact hfirst

/-! ## A row that is not found -/

theorem copyCache_oids (rows : List Queryrow) (src : Queryrow) (index : Nat) :
    (rows.modify index fun row => copyCache row src).map Queryrow.oid = rows.map Queryrow.oid := by
  have hkeep : ∀ row, Queryrow.oid (copyCache row src) = id row.oid := fun row => rfl
  rw [map_modify hkeep, List.modify_id]

/-- The OIDs stay, and so do the caches behind another row with the OID. -/
theorem copyRows_shadowed {dest src result : List Queryrow} (hrun : copyRows dest src = .ok result)
    (hdest : ∀ row ∈ dest, row.oid.isSome) (hsrc : ∀ row ∈ src, row.oid.isSome) :
    result.map Queryrow.oid = dest.map Queryrow.oid ∧
      ∀ earlier index : Nat, earlier < index →
        (dest.map Queryrow.oid)[earlier]? = (dest.map Queryrow.oid)[index]? →
          result[index]? = dest[index]? := by
  induction src generalizing dest with
  | nil =>
      cases hrun
      exact ⟨rfl, fun _ _ _ _ => rfl⟩
  | cons row src ih =>
      have hrest : ∀ other ∈ src, other.oid.isSome := fun other hother =>
        hsrc other (List.mem_cons_of_mem _ hother)
      rw [copyRows, rtgtargetsFindRow_named (hsrc row List.mem_cons_self) hdest, ok_bind] at hrun
      cases hfind : dest.findIdx? fun other => decide (row.oid = other.oid) with
      | none =>
          rw [hfind] at hrun
          exact ih hrun hdest hrest
      | some found =>
          rw [hfind] at hrun
          have hoids := copyCache_oids dest row found
          have hdest' : ∀ other ∈ dest.modify found fun other => copyCache other row,
              other.oid.isSome := by
            intro other hother
            have hmem := List.mem_map_of_mem (f := Queryrow.oid) hother
            rw [hoids] at hmem
            obtain ⟨old, hold, heq⟩ := List.mem_map.mp hmem
            exact heq ▸ hdest old hold
          obtain ⟨hsame, hkept⟩ := ih hrun hdest' hrest
          rw [hoids] at hsame hkept
          refine ⟨hsame, fun earlier index hearlier heq => ?_⟩
          rw [hkept earlier index hearlier heq, List.getElem?_modify]
          split
          · next hindex =>
              subst hindex
              obtain ⟨hbound, -⟩ := List.findIdx?_eq_some_iff_getElem.mp hfind
              refine absurd hfind (findIdx?_ne_of_earlier hearlier hbound ?_)
              have hbefore : earlier < dest.length := Nat.lt_trans hearlier hbound
              simp only [List.getElem?_map, List.getElem?_eq_getElem hbefore,
                List.getElem?_eq_getElem hbound, Option.map_some, Option.some.injEq] at heq
              simp [heq]
          · simp

/-- The row at a place. -/
def rowAt (hosts : List Queryhost) (host row : Nat) : Option Queryrow :=
  (hosts[host]?).bind fun found => found.rows[row]?

/-- What the lookups compare: the name of a host and the OIDs of its rows. -/
def shapeOf (host : Queryhost) : Option CString × List (Option CString) :=
  (host.host, host.rows.map Queryrow.oid)

/-- A row that no lookup reaches: its host stands behind one of its name, or it
behind one of its OID. -/
def Shadowed (shapes : List (Option CString × List (Option CString))) (host row : Nat) : Prop :=
  ∃ shape, shapes[host]? = some shape ∧
    ((∃ earlier < host, ∃ other, shapes[earlier]? = some other ∧ other.1 = shape.1) ∨
      ∃ earlier < row, shape.2[earlier]? = shape.2[row]?)

/-- All strings that lookups compare are there. -/
def AllNamed (shapes : List (Option CString × List (Option CString))) : Prop :=
  ∀ shape ∈ shapes, shape.1.isSome ∧ ∀ oid ∈ shape.2, oid.isSome

/-- One host's rows copied: the names and OIDs stay, and so do the caches of
the rows that no lookup reaches. -/
theorem copyHost_shadowed {dest : List Queryhost} {src : Queryhost} {rows : List Queryrow}
    {index : Nat} (hdest : AllNamed (dest.map shapeOf)) (hsrc : ∀ row ∈ src.rows, row.oid.isSome)
    (hfind : (dest.findIdx? fun host => decide (src.host = host.host)) = some index)
    (hrows : copyRows ((dest[index]?).elim [] Queryhost.rows) src.rows = .ok rows) :
    (dest.modify index fun host => { host with rows := rows }).map shapeOf = dest.map shapeOf ∧
      ∀ host row, Shadowed (dest.map shapeOf) host row →
        rowAt (dest.modify index fun host => { host with rows := rows }) host row =
          rowAt dest host row := by
  obtain ⟨hindex, -⟩ := List.findIdx?_eq_some_iff_getElem.mp hfind
  have hget : dest[index]? = some dest[index] := List.getElem?_eq_getElem hindex
  rw [hget, Option.elim_some] at hrows
  have hoids : ∀ row ∈ dest[index].rows, row.oid.isSome := fun row hrow =>
    (hdest _ (List.mem_map_of_mem (List.getElem_mem hindex))).2 _ (List.mem_map_of_mem hrow)
  obtain ⟨hsame, hkept⟩ := copyRows_shadowed hrows hoids hsrc
  constructor
  · refine List.ext_getElem? fun position => ?_
    rw [List.getElem?_map, List.getElem?_modify, List.getElem?_map]
    by_cases heq : index = position
    · subst heq
      simp [hget, shapeOf, hsame]
    · simp [heq]
  · rintro host row ⟨shape, hshape, hshadow⟩
    unfold rowAt
    rw [List.getElem?_modify]
    by_cases heq : index = host
    · subst heq
      have hof : shape = shapeOf dest[index] := by simpa [hget, eq_comm] using hshape
      subst hof
      rcases hshadow with ⟨earlier, hearlier, other, hother, hname⟩ | ⟨earlier, hearlier, hoid⟩
      · have hbound := Nat.lt_trans hearlier hindex
        have hsameName : dest[earlier].host = dest[index].host := by
          rw [List.getElem?_map, List.getElem?_eq_getElem hbound] at hother
          cases hother
          exact hname
        exact absurd hfind (findIdx?_ne_of_earlier hearlier hindex (by simp [hsameName]))
      · simp [hget, hkept earlier row hearlier hoid]
    · simp [heq]

theorem copyHosts_shadowed {dest src result : List Queryhost}
    (hrun : copyHosts dest src = .ok result) (hdest : AllNamed (dest.map shapeOf))
    (hsrc : AllNamed (src.map shapeOf)) {host row : Nat}
    (hshadowed : Shadowed (dest.map shapeOf) host row) :
    rowAt result host row = rowAt dest host row := by
  induction src generalizing dest with
  | nil =>
      cases hrun
      rfl
  | cons first src ih =>
      obtain ⟨hfirst, hrest⟩ := List.forall_mem_cons.mp hsrc
      have hnames : ∀ found ∈ dest, found.host.isSome := fun found hfound =>
        (hdest _ (List.mem_map_of_mem hfound)).1
      have hname : first.host.isSome := hfirst.1
      rw [copyHosts, rtgtargetsFindHost_named hname hnames, ok_bind] at hrun
      cases hfind : dest.findIdx? fun found => decide (first.host = found.host) with
      | none =>
          rw [hfind] at hrun
          exact ih hrun hdest hrest hshadowed
      | some index =>
          rw [hfind] at hrun
          obtain ⟨rows, hrows, hrun⟩ := bind_eq_ok.mp hrun
          have hoids : ∀ row ∈ first.rows, row.oid.isSome := fun row hrow =>
            hfirst.2 _ (List.mem_map_of_mem hrow)
          obtain ⟨hshapes, hkept⟩ := copyHost_shadowed hdest hoids hfind hrows
          rw [ih hrun (hshapes ▸ hdest) hrest (hshapes ▸ hshadowed), hkept host row hshadowed]

/-! ## Targets read twice -/

/-- Targets that have just been read. -/
def FreshTargets (targets : Rtgtargets) : Prop :=
  ∀ host ∈ targets.hosts, host.host.isSome ∧
    ∀ row ∈ host.rows, row.oid.isSome ∧ row.cachedTime = 0

/-- Each row is the first of its OID in its host, and each host with rows the
first of its name. -/
structure LookupsUnique (targets : Rtgtargets) : Prop where
  oids : ∀ host ∈ targets.hosts, (host.rows.map Queryrow.oid).Nodup
  names : targets.hosts.Pairwise FirstOfName

theorem sameShape_withCaches {dest src : Queryhost} (halike : HostAlike src dest)
    (cached : Nat → Cache) : SameShape dest (Queryhost.withCaches cached src) := by
  constructor
  · exact halike.host.symm
  · refine List.forall₂_iff_get.mpr ⟨?_, fun index hindex hother => ?_⟩
    · simp [Queryhost.withCaches, halike.rows.length_eq]
    · have hlength := halike.rows.length_eq
      have hrow := halike.rows.get (by omega : index < src.rows.length) hindex
      simp only [List.get_eq_getElem] at hrow ⊢
      rw [← hrow]
      simp [Queryhost.withCaches]

theorem takeCaches_withCaches {dest src : Queryhost} (halike : HostAlike src dest)
    (cached : Nat → Cache) :
    takeCaches dest (Queryhost.withCaches cached src) = Queryhost.withCaches cached dest := by
  have hlength := halike.rows.length_eq
  unfold takeCaches Queryhost.withCaches
  congr 1
  refine List.ext_getElem (by simp [hlength]) fun index _ _ => ?_
  simp [copyCache]

theorem map_eq_of_forall₂ {α β γ : Type} {first : α → γ} {second : β → γ} {values : List α}
    {others : List β} (hall : List.Forall₂ (fun value other => first value = second other)
      values others) : values.map first = others.map second := by
  induction hall with
  | nil => rfl
  | cons heq _ ih => simp [heq, ih]

theorem SameShape.shapeOf_eq {dest src : Queryhost} (hsame : SameShape dest src) :
    shapeOf dest = shapeOf src := by
  rw [shapeOf, shapeOf, hsame.host, map_eq_of_forall₂ hsame.oids]

section Twice

variable {src dest : Rtgtargets} (halike : TargetsAlike src dest) (hfresh : FreshTargets dest)

include halike

theorem sameShapes_withCaches (cached : Nat → Nat → Cache) :
    List.Forall₂ SameShape dest.hosts (src.withCaches cached).hosts := by
  have hlength := halike.hosts.length_eq
  refine List.forall₂_iff_get.mpr ⟨by simp [Rtgtargets.withCaches, hlength], ?_⟩
  intro index hindex hother
  have hhost := halike.hosts.get (by omega : index < src.hosts.length) hindex
  simpa [Rtgtargets.withCaches] using sameShape_withCaches hhost (cached index)

include hfresh

theorem copyCache_unique (hunique : LookupsUnique dest) (cached : Nat → Nat → Cache) :
    rtgtargetsCopyCache dest (src.withCaches cached) = .ok (dest.withCaches cached) := by
  have hlength := halike.hosts.length_eq
  have hnamed : ∀ host ∈ dest.hosts, host.host.isSome ∧ ∀ row ∈ host.rows, row.oid.isSome :=
    fun host hhost => ⟨(hfresh host hhost).1, fun row hrow => ((hfresh host hhost).2 row hrow).1⟩
  have hcopy := @copyHosts_distinct [] _ _ (sameShapes_withCaches halike cached) (by simp) hnamed
    hunique.oids (by simp) hunique.names
  simp only [List.nil_append] at hcopy
  rw [rtgtargetsCopyCache, hcopy, ok_bind]
  refine congrArg Except.ok ?_
  simp only [Rtgtargets.withCaches]
  congr 1
  refine List.ext_getElem (by simp [hlength]) fun index hindex _ => ?_
  have hbound : index < dest.hosts.length := by
    simp only [List.length_zipWith] at hindex
    omega
  have hhost := halike.hosts.get (by omega : index < src.hosts.length) hbound
  simpa using takeCaches_withCaches hhost (cached index)

/-- A row that no lookup reaches does not get a cached time back. -/
theorem notShadowed_of_copyCache
    (hcopy : ∀ cached, rtgtargetsCopyCache dest (src.withCaches cached) =
      .ok (dest.withCaches cached)) {host row : Nat}
    (hshadowed : Shadowed (dest.hosts.map shapeOf) host row) :
    rowAt dest.hosts host row = none := by
  let cached : Nat → Nat → Cache := fun _ _ => ⟨1, 1⟩
  obtain ⟨hosts, hrun, hresult⟩ := bind_eq_ok.mp (hcopy cached)
  have hhosts : hosts = (dest.withCaches cached).hosts := by
    cases hresult
    rfl
  have hdest : AllNamed (dest.hosts.map shapeOf) := by
    intro shape hshape
    obtain ⟨found, hfound, rfl⟩ := List.mem_map.mp hshape
    refine ⟨(hfresh found hfound).1, fun oid hoid => ?_⟩
    obtain ⟨other, hother, rfl⟩ := List.mem_map.mp hoid
    exact ((hfresh found hfound).2 other hother).1
  have hsrc : AllNamed ((src.withCaches cached).hosts.map shapeOf) := by
    have hshapes : dest.hosts.map shapeOf = (src.withCaches cached).hosts.map shapeOf :=
      map_eq_of_forall₂ ((sameShapes_withCaches halike cached).imp fun _ _ hsame =>
        hsame.shapeOf_eq)
    exact hshapes ▸ hdest
  have hkept := copyHosts_shadowed hrun hdest hsrc hshadowed
  cases hget : rowAt dest.hosts host row with
  | none => rfl
  | some found =>
      obtain ⟨old, hold, hrow⟩ := Option.bind_eq_some_iff.mp hget
      have htime : found.cachedTime = 0 :=
        ((hfresh old (List.mem_of_getElem? hold)).2 found (List.mem_of_getElem? hrow)).2
      rw [hget, hhosts] at hkept
      simp only [rowAt, Rtgtargets.withCaches, Queryhost.withCaches, List.getElem?_mapIdx, hold,
        Option.map_some, Option.bind_some, hrow, Option.some.injEq, cached] at hkept
      rw [← hkept] at htime
      cases htime

theorem unique_of_copyCache
    (hcopy : ∀ cached, rtgtargetsCopyCache dest (src.withCaches cached) =
      .ok (dest.withCaches cached)) : LookupsUnique dest := by
  constructor
  · intro host hhost
    obtain ⟨index, hindex, rfl⟩ := List.getElem_of_mem hhost
    rw [List.nodup_iff_getElem?_ne_getElem?]
    intro earlier row hearlier hrow heq
    rw [List.length_map] at hrow
    have hnone := @notShadowed_of_copyCache _ _ halike hfresh hcopy index row
      ⟨shapeOf dest.hosts[index], by simp [List.getElem?_eq_getElem hindex],
        Or.inr ⟨earlier, hearlier, heq⟩⟩
    simp [rowAt, List.getElem?_eq_getElem hindex, hrow] at hnone
  · refine List.pairwise_iff_getElem.mpr fun earlier index hbound hindex hearlier hrows hname => ?_
    have hnone := @notShadowed_of_copyCache _ _ halike hfresh hcopy index 0
      ⟨shapeOf dest.hosts[index], by simp [List.getElem?_eq_getElem hindex],
        Or.inl ⟨earlier, hearlier, shapeOf dest.hosts[earlier],
          by simp [List.getElem?_eq_getElem hbound], hname⟩⟩
    simp [rowAt, List.getElem?_eq_getElem hindex] at hnone
    exact hrows hnone

/-- Every row gets its caches back exactly if lookups reach every row. -/
theorem copyCache_iff :
    (∀ cached, rtgtargetsCopyCache dest (src.withCaches cached) = .ok (dest.withCaches cached)) ↔
      LookupsUnique dest := by
  constructor
  · exact unique_of_copyCache halike hfresh
  · exact copyCache_unique halike hfresh

end Twice

end ClusteredPoller.Targets
