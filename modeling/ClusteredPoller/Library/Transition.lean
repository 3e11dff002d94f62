import Mathlib.Tactic.ByContra

/-!
# Runs of labelled transitions

A system makes the step of a label, where it can.  A run makes the steps of a
list of labels.  An invariant is shown for one step; it then holds in whatever
state a run ends in.  A guard is a condition on the steps of a run: what is
invariant under the steps that meet the guard holds along the guarded runs.

What some run can reach is shown with a variant: a number that some step makes
smaller as long as the goal is not reached.
-/

namespace ClusteredPoller.Library.Transition

variable {σ ι : Type}

/-- Make the steps in order. -/
def run (step : ι → σ → Option σ) : List ι → σ → Option σ
  | [], state => some state
  | label :: labels, state => (step label state).bind (run step labels)

/-- The next state, if there is one, has the property. -/
def After (property : σ → Prop) : Option σ → Prop
  | none => True
  | some next => property next

/-- Every step of the run meets the guard. -/
def Guarded (step : ι → σ → Option σ) (guard : ι → σ → Prop) : List ι → σ → Prop
  | [], _ => True
  | label :: labels, state =>
      guard label state ∧ After (Guarded step guard labels) (step label state)

/-- A decidable guard can be checked along a run. -/
def decideGuarded (step : ι → σ → Option σ) (guard : ι → σ → Prop)
    [∀ label state, Decidable (guard label state)] :
    ∀ labels state, Decidable (Guarded step guard labels state)
  | [], _ => .isTrue trivial
  | label :: labels, state =>
      match hnext : step label state with
      | none =>
          decidable_of_iff (guard label state) (by rw [Guarded, hnext, After, and_true])
      | some next =>
          have := decideGuarded step guard labels next
          decidable_of_iff (guard label state ∧ Guarded step guard labels next)
            (by rw [Guarded, hnext, After])

instance (step : ι → σ → Option σ) (guard : ι → σ → Prop)
    [∀ label state, Decidable (guard label state)] (labels : List ι) (state : σ) :
    Decidable (Guarded step guard labels state) := decideGuarded step guard labels state

/-- The property is kept by every step that meets the guard. -/
def Keeps (step : ι → σ → Option σ) (guard : ι → σ → Prop) (property : σ → Prop) : Prop :=
  ∀ label state next, guard label state → property state → step label state = some next →
    property next

section Run

variable {step : ι → σ → Option σ} {guard : ι → σ → Prop} {property : σ → Prop}

theorem run_cons_eq_some {label : ι} {labels : List ι} {state final : σ} :
    run step (label :: labels) state = some final ↔
      ∃ next, step label state = some next ∧ run step labels next = some final := by
  rw [run, Option.bind_eq_some_iff]

theorem run_append (first second : List ι) (state : σ) :
    run step (first ++ second) state = (run step first state).bind (run step second) := by
  induction first generalizing state with
  | nil => rfl
  | cons label first ih =>
      rw [List.cons_append, run, run]
      cases step label state with
      | none => rfl
      | some next => exact ih next

/-- Two runs that follow each other are one run. -/
theorem run_trans {first second : List ι} {state middle final : σ}
    (hfirst : run step first state = some middle) (hsecond : run step second middle = some final) :
    run step (first ++ second) state = some final := by
  rw [run_append, hfirst, Option.bind_some, hsecond]

/-- What every guarded step keeps, every guarded run keeps. -/
theorem Keeps.run (keeps : Keeps step guard property) {labels : List ι} {state final : σ}
    (guarded : Guarded step guard labels state) (holds : property state)
    (hrun : Transition.run step labels state = some final) : property final := by
  induction labels generalizing state with
  | nil =>
      cases hrun
      exact holds
  | cons label labels ih =>
      obtain ⟨next, hstep, hrest⟩ := run_cons_eq_some.mp hrun
      have hguarded := guarded.2
      rw [hstep] at hguarded
      exact ih hguarded (keeps label state next guarded.1 holds hstep) hrest

/-- A guard that the labels meet in every state guards the run. -/
theorem guarded_of_labels {labels : List ι}
    (hguard : ∀ label ∈ labels, ∀ state, guard label state) (state : σ) :
    Guarded step guard labels state := by
  induction labels generalizing state with
  | nil => trivial
  | cons label labels ih =>
      refine ⟨hguard label List.mem_cons_self state, ?_⟩
      cases step label state with
      | none => trivial
      | some next =>
          exact ih (fun label hlabel => hguard label (List.mem_cons_of_mem _ hlabel)) next

/-- The runs that a stronger guard allows. -/
theorem Guarded.imp {weaker : ι → σ → Prop} {labels : List ι} {state : σ}
    (guarded : Guarded step guard labels state)
    (himp : ∀ label state, guard label state → weaker label state) :
    Guarded step weaker labels state := by
  induction labels generalizing state with
  | nil => trivial
  | cons label labels ih =>
      refine ⟨himp label state guarded.1, ?_⟩
      have hguarded := guarded.2
      cases hstep : step label state with
      | none => trivial
      | some next =>
          rw [hstep] at hguarded
          exact ih hguarded

/-- If every unguarded step leaves a mark that no step takes away, then a run
that ends without the mark is guarded. -/
theorem guarded_of_unmarked {invariant marked : σ → Prop}
    (kept : Keeps step (fun _ _ => True) invariant)
    (keeps : ∀ label state next, invariant state → marked state →
      step label state = some next → marked next)
    (marks : ∀ label state next, invariant state → ¬ guard label state →
      step label state = some next → marked next)
    {labels : List ι} {state final : σ} (holds : invariant state)
    (hrun : Transition.run step labels state = some final) (hunmarked : ¬ marked final) :
    Guarded step guard labels state := by
  have stays : Keeps step (fun _ _ => True) fun state => invariant state ∧ marked state :=
    fun label state next hguard both hstep =>
      ⟨kept label state next hguard both.1 hstep, keeps label state next both.1 both.2 hstep⟩
  induction labels generalizing state with
  | nil => trivial
  | cons label labels ih =>
      obtain ⟨next, hstep, hrest⟩ := run_cons_eq_some.mp hrun
      have hnext := kept label state next trivial holds hstep
      constructor
      · by_contra hguard
        have hmarked := marks label state next holds hguard hstep
        exact hunmarked (stays.run (guarded_of_labels (fun _ _ _ => trivial) next)
          ⟨hnext, hmarked⟩ hrest).2
      · rw [hstep]
        exact ih hnext hrest

/-- If the steps of a run keep a property exactly if they meet the guard, and
none brings the property about, then the run keeps it exactly if it is guarded. -/
theorem Guarded.iff_of_steps {assumed : ι → σ → Prop} {invariant : σ → Prop}
    (kept : Keeps step assumed invariant)
    (hsteps : ∀ label state next, assumed label state → invariant state →
      step label state = some next → (property next ↔ property state ∧ guard label state))
    {labels : List ι} {state final : σ} (hassumed : Guarded step assumed labels state)
    (holds : invariant state) (hrun : Transition.run step labels state = some final) :
    property final ↔ property state ∧ Guarded step guard labels state := by
  induction labels generalizing state with
  | nil =>
      cases hrun
      exact (and_iff_left trivial).symm
  | cons label labels ih =>
      obtain ⟨next, hstep, hrest⟩ := run_cons_eq_some.mp hrun
      obtain ⟨hlabel, hlabels⟩ := hassumed
      rw [hstep] at hlabels
      rw [ih hlabels (kept label state next hlabel holds hstep) hrest,
        hsteps label state next hlabel holds hstep, Guarded, hstep, and_assoc]
      exact Iff.rfl

end Run

/-! ## What can be reached -/

/-- Steps of allowed labels lead from the state to the final one. -/
def Reaches (step : ι → σ → Option σ) (allowed : ι → Prop) (state final : σ) : Prop :=
  ∃ labels, (∀ label ∈ labels, allowed label) ∧ run step labels state = some final

section Reaches

variable {step : ι → σ → Option σ} {allowed : ι → Prop} {state middle final : σ}

theorem Reaches.refl (state : σ) : Reaches step allowed state state :=
  ⟨[], fun _ impossible => (List.not_mem_nil impossible).elim, rfl⟩

theorem Reaches.trans (first : Reaches step allowed state middle)
    (second : Reaches step allowed middle final) : Reaches step allowed state final := by
  obtain ⟨labels, hallowed, hrun⟩ := first
  obtain ⟨labels', hallowed', hrun'⟩ := second
  refine ⟨labels ++ labels', ?_, run_trans hrun hrun'⟩
  intro label hlabel
  rcases List.mem_append.mp hlabel with hfirst | hsecond
  · exact hallowed label hfirst
  · exact hallowed' label hsecond

theorem Reaches.single {label : ι} (hallowed : allowed label)
    (hstep : step label state = some final) : Reaches step allowed state final := by
  refine ⟨[label], ?_, run_cons_eq_some.mpr ⟨final, hstep, rfl⟩⟩
  intro other hother
  rw [List.mem_singleton.mp hother]
  exact hallowed

/-- What the allowed steps keep holds in every state that they lead to. -/
theorem Reaches.property {property : σ → Prop}
    (keeps : Keeps step (fun label _ => allowed label) property)
    (reaches : Reaches step allowed state final) (holds : property state) : property final := by
  obtain ⟨labels, hallowed, hrun⟩ := reaches
  exact keeps.run (guarded_of_labels (fun label hlabel _ => hallowed label hlabel) state) holds hrun

/-- If short of the goal some allowed step keeps the invariant and makes the
variant smaller, then the goal can be reached. -/
theorem reaches_of_variant {invariant goal : σ → Prop} (variant : σ → Nat)
    (progress : ∀ state, invariant state → ¬ goal state → ∃ label next, allowed label ∧
      step label state = some next ∧ invariant next ∧ variant next < variant state)
    (holds : invariant state) :
    ∃ final, Reaches step allowed state final ∧ invariant final ∧ goal final := by
  induction hsize : variant state using Nat.strongRecOn generalizing state with
  | ind size ih =>
      by_cases hgoal : goal state
      · exact ⟨state, Reaches.refl state, holds, hgoal⟩
      · obtain ⟨label, next, hallowed, hstep, hnext, hless⟩ := progress state holds hgoal
        obtain ⟨final, reaches, hfinal⟩ := ih (variant next) (hsize ▸ hless) hnext rfl
        exact ⟨final, (Reaches.single hallowed hstep).trans reaches, hfinal⟩

end Reaches

end ClusteredPoller.Library.Transition
