import Mathlib.Tactic.ByContra

/-!
# Lists that repeat a cycle

A list of events that goes round a cycle, from the beginning of the cycle and up
to anywhere in it, and what comes next.
-/

namespace ClusteredPoller.Library.Cycle

variable {α : Type} {cycle events more : List α} {event : α}

/-- The events go round the cycle. -/
def Repeats (cycle events : List α) : Prop :=
  ∀ i, i < events.length → events[i]? = cycle[i % cycle.length]?

/-- What is left of the cycle behind the events. -/
def upcoming (cycle events : List α) : List α := cycle.drop (events.length % cycle.length)

theorem repeats_nil : Repeats cycle [] := fun _ impossible => absurd impossible (Nat.not_lt_zero _)

theorem upcoming_nil : upcoming cycle [] = cycle := by
  rw [upcoming, List.length_nil, Nat.zero_mod, List.drop_zero]

theorem repeats_append_singleton :
    Repeats cycle (events ++ [event]) ↔
      Repeats cycle events ∧ (upcoming cycle events).head? = some event := by
  rw [upcoming, List.head?_drop]
  constructor
  · intro repeats
    refine ⟨fun i hi => ?_, ?_⟩
    · have hitem := repeats i (by rw [List.length_append]; exact Nat.lt_add_right _ hi)
      rwa [List.getElem?_append_left hi] at hitem
    · have hlast := repeats events.length (by simp)
      rw [List.getElem?_concat_length] at hlast
      exact hlast.symm
  · rintro ⟨repeats, hnext⟩ i hi
    rw [List.length_append, List.length_singleton] at hi
    rcases Nat.lt_succ_iff_lt_or_eq.mp hi with hbefore | rfl
    · rw [List.getElem?_append_left hbefore]
      exact repeats i hbefore
    · rw [List.getElem?_concat_length, hnext]

/-- What begins a list that repeats the cycle repeats it, too. -/
theorem Repeats.of_append (repeats : Repeats cycle (events ++ more)) : Repeats cycle events := by
  intro i hi
  have hitem := repeats i (by rw [List.length_append]; exact Nat.lt_add_right _ hi)
  rwa [List.getElem?_append_left hi] at hitem

/-- Behind the event that comes next, the cycle goes on, or begins again. -/
theorem upcoming_append (hupcoming : upcoming cycle events = event :: more) :
    upcoming cycle (events ++ [event]) = if more = [] then cycle else more := by
  have hlt : events.length % cycle.length < cycle.length := by
    by_contra hge
    rw [upcoming, List.drop_eq_nil_of_le (Nat.not_lt.mp hge)] at hupcoming
    cases hupcoming
  have hmore : more = cycle.drop (events.length % cycle.length + 1) := by
    rw [← List.drop_drop, ← upcoming, hupcoming]
    rfl
  rw [upcoming, List.length_append, List.length_singleton, ← Nat.mod_add_mod]
  by_cases hend : events.length % cycle.length + 1 = cycle.length
  · rw [hend, Nat.mod_self, List.drop_zero, if_pos]
    rw [hmore, hend, List.drop_length]
  · have hstill : events.length % cycle.length + 1 < cycle.length :=
      Nat.lt_of_le_of_ne hlt hend
    rw [Nat.mod_eq_of_lt hstill, ← hmore, if_neg]
    rw [hmore, List.drop_eq_nil_iff]
    exact Nat.not_le.mpr hstill

end ClusteredPoller.Library.Cycle
