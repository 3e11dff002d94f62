import ClusteredPoller.Library.Transition

/-!
# Observed runs

A system together with the list of what its steps have shown, so that what has
happened in a run is a question about a state of the observed system.
-/

namespace ClusteredPoller.Library

/-- A state and what the steps up to it have shown. -/
structure Observed (σ ε : Type) where
  state : σ
  events : List ε

namespace Observed

variable {σ ι ε : Type}

/-- Nothing has been shown yet. -/
def begin (state : σ) : Observed σ ε where
  state := state
  events := []

/-- Make a step, and note what it shows. -/
def step (make : ι → σ → Option σ) (shows : ι → σ → List ε) (label : ι) (o : Observed σ ε) :
    Option (Observed σ ε) :=
  (make label o.state).map fun next =>
    { state := next, events := o.events ++ shows label o.state }

variable {make : ι → σ → Option σ} {shows : ι → σ → List ε}

theorem step_eq_some {label : ι} {o next : Observed σ ε} :
    step make shows label o = some next ↔
      make label o.state = some next.state ∧ next.events = o.events ++ shows label o.state := by
  obtain ⟨nextState, nextEvents⟩ := next
  rw [step, Option.map_eq_some_iff]
  constructor
  · rintro ⟨state, hstate, heq⟩
    cases heq
    exact ⟨hstate, rfl⟩
  · rintro ⟨hstate, hevents⟩
    cases hevents
    exact ⟨nextState, hstate, rfl⟩

/-- A run of the observed system is one of the system. -/
theorem run_state {labels : List ι} {o final : Observed σ ε}
    (hrun : Transition.run (step make shows) labels o = some final) :
    Transition.run make labels o.state = some final.state := by
  induction labels generalizing o with
  | nil =>
      cases hrun
      rfl
  | cons label labels ih =>
      obtain ⟨next, hstep, hrest⟩ := Transition.run_cons_eq_some.mp hrun
      exact Transition.run_cons_eq_some.mpr
        ⟨next.state, (step_eq_some.mp hstep).1, ih hrest⟩

/-- A guard on the states guards the observed run as it guards the run. -/
theorem guarded_iff {guard : ι → σ → Prop} {labels : List ι} {o : Observed σ ε} :
    Transition.Guarded (step make shows) (fun label o => guard label o.state) labels o ↔
      Transition.Guarded make guard labels o.state := by
  induction labels generalizing o with
  | nil => exact Iff.rfl
  | cons label labels ih =>
      rw [Transition.Guarded, Transition.Guarded, step]
      cases make label o.state with
      | none => exact Iff.rfl
      | some next => exact and_congr_right fun _ => ih

end Observed

end ClusteredPoller.Library
