import ClusteredPoller.Database.Entries
import ClusteredPoller.Threads.Effects
import ClusteredPoller.Threads.InHand

/-!
# The tables of the samples

The pollers write to the caches of the rows and leave their tables alone.  A
sample is stored under the table of its row, with the time of the response.
-/

namespace ClusteredPoller.Threads

open Database Library.Outcome Poller State

variable {n : Nat}

/-- No table has a space in its name. -/
def Spaceless (hosts : List Queryhost) : Prop :=
  ∀ host ∈ hosts, ∀ row ∈ host.rows, ∀ table ∈ row.table, ' ' ∉ table.chars

instance (hosts : List Queryhost) : Decidable (Spaceless hosts) :=
  inferInstanceAs (Decidable (∀ host ∈ hosts, ∀ row ∈ host.rows, ∀ table ∈ row.table,
    ' ' ∉ table.chars))

section Rows

variable {s : State n} {host number : Nat} {row row' : Queryrow}

theorem Spaceless.of_row (spaceless : Spaceless s.hosts) (hrow : s.row host number = some row) :
    ∀ table ∈ row.table, ' ' ∉ table.chars := by
  obtain ⟨target, htarget, hnumber⟩ := Option.bind_eq_some_iff.mp hrow
  exact spaceless target (List.mem_of_getElem? htarget) row (List.mem_of_getElem? hnumber)

theorem mem_setRow {target : Queryhost} (hmem : target ∈ (s.setRow host number row).hosts) :
    ∃ before ∈ s.hosts, ∀ other ∈ target.rows, other ∈ before.rows ∨ other = row := by
  obtain ⟨index, hindex⟩ := List.mem_iff_getElem?.mp hmem
  rw [State.setRow, List.getElem?_modify] at hindex
  obtain ⟨before, hbefore, heq⟩ := Option.map_eq_some_iff.mp hindex
  refine ⟨before, List.mem_of_getElem? hbefore, fun other hother => ?_⟩
  rw [← heq] at hother
  split at hother
  · exact List.mem_or_eq_of_mem_set hother
  · exact Or.inl hother

theorem Spaceless.setRow (spaceless : Spaceless s.hosts) (hrow : s.row host number = some row)
    (htable : row'.table = row.table) : Spaceless (s.setRow host number row').hosts := by
  intro target htarget other hother
  obtain ⟨before, hbefore, hrows⟩ := mem_setRow htarget
  rcases hrows other hother with hold | rfl
  · exact spaceless before hbefore other hold
  · rw [htable]
    exact spaceless.of_row hrow

end Rows

/-! ## Steps -/

section Steps

variable {config : Rtgconf} {s next : State n}

theorem pollRow_table {number : Nat} {row row' : Queryrow} {reply : Reply}
    {progress progress' : Progress}
    (hpoll : pollRow number row reply progress = .ok (row', progress')) :
    row'.table = row.table := by
  obtain ⟨value, -, hrow', -, -⟩ := pollRow_cases hpoll
  rw [hrow']
  cases reply with
  | none => rfl
  | some sample => rfl

theorem PollerEffect.spaceless {i : Fin n} (effect : PollerEffect i s next)
    (spaceless : Spaceless s.hosts) : Spaceless next.hosts := by
  have same : next.hosts = s.hosts → Spaceless next.hosts := fun hhosts => hhosts ▸ spaceless
  cases effect with
  | queries _ host _ number _ row row' _ _ _ hrow _ hpoll hshared =>
      have hhosts : next.hosts = (s.setRow host number row').hosts := congrArg Shared.hosts hshared
      rw [hhosts]
      exact spaceless.setRow hrow (pollRow_table hpoll)
  | moves _ _ hshared | leaves _ _ _ hshared | enters _ _ hshared | takes _ _ _ hshared
  | leavesLoop _ _ _ _ hshared | finishes _ _ _ _ hshared | endsRound _ hshared
  | returns _ _ _ hshared | fails _ hshared =>
      exact same (congrArg Shared.hosts hshared)

theorem step_spaceless {label : Label n} (spaceless : Spaceless s.hosts)
    (hstep : step config label s = some next) : Spaceless next.hosts := by
  have same : next.hosts = s.hosts → Spaceless next.hosts := fun hhosts => hhosts ▸ spaceless
  cases (step_effect hstep).2 with
  | ticks _ hnext | calls _ _ _ hnext | logs _ _ _ _ hnext | signals _ _ _ hnext =>
      exact same (by rw [hnext])
  | polls _ _ _ _ effect _ => exact effect.spaceless spaceless
  | monitors _ _ effect =>
      cases effect.effect with
      | resets _ hshared | ends _ _ _ hshared | moves hshared =>
          exact same (congrArg Shared.hosts hshared)
  | handles _ _ effect => exact same (congrArg Shared.hosts effect.shared)

theorem valueOf_dtime {row : Queryrow} {sample : Sample} {value : ClinsertValue}
    (hvalue : valueOf row sample = .ok (some value)) : value.dtime = sample.dtime := by
  unfold valueOf at hvalue
  split at hvalue
  · split at hvalue
    · obtain ⟨found, -, hrest⟩ := bind_eq_ok.mp hvalue
      split at hrest
      · cases hrest
        rfl
      · cases hrest
    · cases hvalue
  · cases hvalue

/-- A stored sample has the table of its row and the time of the response. -/
theorem storedBy_printable {i : Fin n} {meets : Meeting} (spaceless : Spaceless s.hosts)
    (htime : s.time < 2 ^ 63) : ∀ sample ∈ s.storedBy i meets, Printable sample := by
  intro sample hsample
  unfold State.storedBy at hsample
  split at hsample
  · split at hsample
    · rename_i row hrow
      unfold storedSamples at hsample
      split at hsample
      · rename_i value _ hvalue
        rw [Option.mem_toList] at hsample
        obtain ⟨stored, rfl, rfl⟩ := Option.map_eq_some_iff.mp hsample
        refine ⟨spaceless.of_row hrow, ?_⟩
        cases hreply : meets.reply with
        | none =>
            rw [hreply] at hvalue
            cases hvalue
        | some counter =>
            rw [hreply] at hvalue
            have hdtime : stored.dtime = s.time := valueOf_dtime hvalue
            rw [ValidTime, hdtime]
            exact ⟨Int.natCast_nonneg _, htime⟩
      · cases hsample
    · cases hsample
  · cases hsample

end Steps

end ClusteredPoller.Threads
