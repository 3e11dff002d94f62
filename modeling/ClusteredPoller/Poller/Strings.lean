import ClusteredPoller.Poller.SessionFailure

/-!
# The strings of a poll

A poll of a host that has a community, and a table in each row, hands no `NULL`
to a string function.
-/

namespace ClusteredPoller.Poller

open Library.Outcome (Yields bind_eq_error)

/-- Each insert has a table. -/
def TablesSet (inserts : Inserts) : Prop :=
  ∀ insert, some insert ∈ inserts → insert.table.isSome

theorem tablesSet_noInserts : TablesSet noInserts := by
  intro insert hinsert
  cases List.eq_of_mem_replicate hinsert

theorem clinsertForTable_yields {inserts : Inserts} {table : Option CString}
    (hinserts : TablesSet inserts) (htable : table.isSome) :
    Yields (· ≠ .nullString) (fun found => TablesSet found.1) (clinsertForTable inserts table) := by
  induction inserts with
  | nil => exact Yields.error (by simp)
  | cons slot rest ih =>
      have hrest : TablesSet rest := fun insert hinsert =>
        hinserts insert (List.mem_cons_of_mem _ hinsert)
      cases slot with
      | none =>
          refine Yields.pure fun insert hinsert => ?_
          rcases List.mem_cons.mp hinsert with heq | hinsert
          · cases heq
            exact htable
          · exact hrest insert hinsert
      | some first =>
          have hfirst : first.table.isSome := hinserts first List.mem_cons_self
          obtain ⟨earlier, hearlier⟩ := Option.isSome_iff_exists.mp hfirst
          obtain ⟨wanted, hwanted⟩ := Option.isSome_iff_exists.mp htable
          have hcompare : Yields (· ≠ .nullString) (fun _ => True)
              (strcmpEqual first.table table) := by
            rw [hearlier, hwanted]
            exact Yields.pure trivial
          refine hcompare.bind fun equal _ => ?_
          split
          · exact Yields.pure hinserts
          · refine (ih hrest).bind fun found hfound => Yields.pure fun insert hinsert => ?_
            rcases List.mem_cons.mp hinsert with heq | hinsert
            · cases heq
              exact hfirst
            · exact hfound insert hinsert

theorem pushAt_tablesSet {inserts : Inserts} (hinserts : TablesSet inserts) (slot : Nat)
    (value : ClinsertValue) : TablesSet (pushAt inserts slot value) := by
  intro insert hinsert
  obtain ⟨index, hindex, heq⟩ := List.getElem_of_mem hinsert
  simp only [pushAt, List.getElem_modify] at heq
  have hold := List.getElem_mem (l := inserts) (by simpa [pushAt] using hindex : index < _)
  split at heq
  · obtain ⟨old, hget, rfl⟩ := Option.map_eq_some_iff.mp heq
    exact hinserts old (hget ▸ hold)
  · exact hinserts insert (heq ▸ hold)

theorem pollRow_yields {number : Nat} {row : Queryrow} {reply : Reply} {progress : Progress}
    (hinserts : TablesSet progress.inserts) (htable : row.table.isSome) :
    Yields (· ≠ .nullString) (fun polled => TablesSet polled.2.inserts)
      (pollRow number row reply progress) := by
  cases reply with
  | none => exact Yields.pure hinserts
  | some sample =>
      have hvalue : Yields (· ≠ .nullString) (fun _ => True) (valueOf row sample) := by
        constructor
        · exact fun _ _ => trivial
        · intro fault hfault
          rw [valueOf_fault hfault]
          simp
      refine hvalue.bind fun value _ => ?_
      cases value with
      | none => exact Yields.pure hinserts
      | some value =>
          have hstore : Yields (· ≠ .nullString) TablesSet
              (storeValue progress.inserts row.table value) :=
            (clinsertForTable_yields hinserts htable).bind fun found hfound =>
              Yields.pure (pushAt_tablesSet hfound found.2 value)
          exact hstore.bind fun stored hstored => Yields.pure hstored

theorem pollRows_yields {maxErrors : UInt32} {replies : Nat → Reply} {start : Nat}
    {rows : List Queryrow} {progress : Progress} (hinserts : TablesSet progress.inserts)
    (htables : ∀ row ∈ rows, row.table.isSome) :
    Yields (· ≠ .nullString) (fun polled => TablesSet polled.2.inserts)
      (pollRows maxErrors replies start rows progress) := by
  induction rows generalizing start progress with
  | nil => exact Yields.pure hinserts
  | cons row rows ih =>
      have htable := htables row List.mem_cons_self
      refine (pollRow_yields hinserts htable).bind fun polled hpolled => ?_
      split
      · exact Yields.pure hpolled
      · have hothers : ∀ other ∈ rows, other.table.isSome := fun other hother =>
          htables other (List.mem_cons_of_mem _ hother)
        exact (ih hpolled hothers).bind fun rest hrest => Yields.pure hrest

variable {Handle : Type}

/-- No `strcmp` of `clinsert_for_table` and no `strlen` of
`clsnmp_session_create` meets a `NULL`. -/
theorem getClinserts_noNull (sessOpen : SessOpen Handle) (replies : Nat → Reply)
    {host : Queryhost} (maxErrors : UInt32) (hcommunity : host.community.isSome)
    (htables : ∀ row ∈ host.rows, row.table.isSome) :
    getClinserts sessOpen replies host maxErrors ≠ .error .nullString := by
  intro hfault
  obtain ⟨community, hcommunity⟩ := Option.isSome_iff_exists.mp hcommunity
  rcases bind_eq_error.mp hfault with hsession | ⟨session, _, hrest⟩
  · rw [hcommunity] at hsession
    unfold clsnmpSessionCreate at hsession
    split at hsession <;> cases hsession
  · cases session with
    | none => cases hrest
    | some session =>
        rcases bind_eq_error.mp hrest with hrows | ⟨polled, _, hresult⟩
        · exact (pollRows_yields tablesSet_noInserts htables).fails _ hrows rfl
        · cases hresult

end ClusteredPoller.Poller
