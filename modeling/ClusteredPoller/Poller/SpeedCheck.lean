import ClusteredPoller.Poller.ValueLemmas

/-!
# The speed check

`get_clinserts` compares a sample's rate with the row's speed after
`calculate_rate` has narrowed the rate to 32 bits, while the speed keeps its 64
bits.  A rate from `2 ^ 32` on is therefore judged by its low 32 bits.
-/

namespace ClusteredPoller.Poller

/-- No poll of any host pushes a value for this row when it gets this sample. -/
def PushesNothing (row : Queryrow) (sample : Sample) : Prop :=
  ∀ (Handle : Type) (sessOpen : SessOpen Handle) (replies : Nat → Reply) (host : Queryhost)
    (maxErrors : UInt32) (number : Nat) (polled : Polled),
    host.rows[number]? = some row → replies number = some sample →
    getClinserts sessOpen replies host maxErrors = .ok polled →
    valuesOf number polled.history = []

/-- Nothing is pushed for a sample exactly when the loop body decides so. -/
theorem pushesNothing_iff {row : Queryrow} {sample : Sample} {value : Option ClinsertValue}
    (hvalue : valueOf row sample = .ok value) :
    PushesNothing row sample ↔ value = none := by
  constructor
  · intro hnothing
    obtain ⟨polled, hpoll, -, hvalues⟩ := poll_singleHost hvalue
    have hempty := hnothing Unit _ _ _ _ 0 polled rfl rfl hpoll
    rw [hvalues] at hempty
    exact Option.toList_eq_nil_iff.mp hempty
  · rintro rfl Handle sessOpen replies host maxErrors number polled hrow hreply hpoll
    obtain ⟨recorded, _⟩ := getClinserts_recorded hpoll
    obtain ⟨after, _, hfeed⟩ := recorded.fed number row hrow
    rw [Nat.zero_add] at hfeed
    rcases recorded.replied number with hnone | hsome
    · -- The row was not reached, or its get failed.
      rw [hnone] at hfeed
      exact (Prod.mk.inj (Except.ok.inj hfeed)).2.symm
    · rw [hsome, hreply, Option.toList_some, feed_singleton hvalue] at hfeed
      exact (Prod.mk.inj (Except.ok.inj hfeed)).2.symm

/-- The speed check keeps an over-speed sample out exactly when the sample has
no previous value anyway, is not over speed, or has low 32 bits of the rate
that are over speed themselves. -/
theorem speed_check_holds_iff {row : Queryrow} {sample : Sample}
    (measurable : Measurable row sample) :
    (row.speed.toNat ≤ trueRate row sample → PushesNothing row sample) ↔
      ¬ HasPrevious row sample ∨ trueRate row sample < row.speed.toNat ∨
        row.speed.toNat ≤ trueRate row sample % 2 ^ 32 := by
  obtain ⟨value, hvalue, hnone, _⟩ := valueOf_measurable measurable
  rw [pushesNothing_iff hvalue, hnone, not_and_or, Nat.not_lt]
  constructor
  · intro hchecked
    rcases Nat.lt_or_ge (trueRate row sample) row.speed.toNat with hbelow | hover
    · exact Or.inr (Or.inl hbelow)
    · rcases hchecked hover with hprevious | hlow
      · exact Or.inl hprevious
      · exact Or.inr (Or.inr hlow)
  · rintro (hprevious | hbelow | hlow) hover
    · exact Or.inl hprevious
    · exact absurd hover (Nat.not_le.mpr hbelow)
    · exact Or.inr hlow

/-- Below `2 ^ 32` the narrowing changes nothing and the check is sound. -/
theorem speed_check_sound_below_32_bits {row : Queryrow} {sample : Sample}
    (measurable : Measurable row sample) (hnarrow : trueRate row sample < 2 ^ 32)
    (hover : row.speed.toNat ≤ trueRate row sample) : PushesNothing row sample := by
  obtain ⟨value, hvalue, hnone, _⟩ := valueOf_measurable measurable
  rw [pushesNothing_iff hvalue, hnone, Nat.mod_eq_of_lt hnarrow]
  exact fun all => absurd hover (Nat.not_le.mpr all.2)

/-- A 64-bit counter on a 10 Mbit/s interface, `300 * 2 ^ 32` short of its wrap. -/
def resetRow : Queryrow where
  oid := some (CString.ofString ".1.3.6.1.2.1.31.1.1.1.10.1")
  table := some (CString.ofString "ifHCOutOctets_276")
  id := 2816
  bits := 64
  speed := 1250000
  cachedCounter := 18446742785219362816
  cachedTime := 1000

/-- The device restarts, and 300 seconds later the counter reads zero. -/
def resetSample : Sample := ⟨0, 1300⟩

theorem resetRow_measurable : Measurable resetRow resetSample :=
  ⟨Or.inr ⟨⟨rfl, Or.inr rfl⟩, by decide, by decide⟩, by decide⟩

/-- The restart looks like a rate of `2 ^ 32` bytes per second, of which the
check sees zero. -/
theorem reset_passes_speed_check :
    Measurable resetRow resetSample ∧ resetRow.speed.toNat ≤ trueRate resetRow resetSample ∧
      ¬ PushesNothing resetRow resetSample := by
  have hvalue : valueOf resetRow resetSample = .ok (some
      { id := 2816, counter := 1288490188800, rate := 0, dtime := 1300, currvalue := 0 }) := by
    decide
  refine ⟨resetRow_measurable, by decide, ?_⟩
  rw [pushesNothing_iff hvalue]
  exact Option.some_ne_none _

/-- The check at work on the same row, at twice its speed. -/
theorem speed_check_holds_double :
    resetRow.speed.toNat ≤ trueRate resetRow ⟨18446742785219362816 + 750000000, 1300⟩ ∧
      PushesNothing resetRow ⟨18446742785219362816 + 750000000, 1300⟩ := by
  have hover : resetRow.speed.toNat ≤
      trueRate resetRow ⟨18446742785219362816 + 750000000, 1300⟩ := by decide
  have holds := (@speed_check_holds_iff resetRow ⟨18446742785219362816 + 750000000, 1300⟩
    ⟨Or.inr ⟨⟨rfl, Or.inr rfl⟩, by decide, by decide⟩, by decide⟩).mpr (Or.inr (Or.inr (by decide)))
  exact ⟨hover, holds hover⟩

end ClusteredPoller.Poller
