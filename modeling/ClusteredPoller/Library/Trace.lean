import ClusteredPoller.Library.Transition

/-!
# Traces

What a run shows to the outside.  Some steps show an event and others show
nothing.  If every step of one system can be answered by steps of another that
show the same, then the other system has every trace of the first.
-/

namespace ClusteredPoller.Library

/-- A system, and what its steps show. -/
structure Shown (σ ι ε : Type) where
  step : ι → σ → Option σ
  shows : ι → σ → List ε

namespace Shown

variable {σ τ ι κ ε : Type}

/-- A run from one state to another that shows the events. -/
inductive Trace (system : Shown σ ι ε) : σ → List ε → σ → Prop where
  | nil (state : σ) : Trace system state [] state
  | cons {state next final : σ} {events : List ε} (label : ι)
      (hstep : system.step label state = some next) (rest : Trace system next events final) :
      Trace system state (system.shows label state ++ events) final

namespace Trace

variable {system : Shown σ ι ε} {state middle final : σ} {events others : List ε}

theorem single {next : σ} (label : ι) (hstep : system.step label state = some next) :
    Trace system state (system.shows label state) next := by
  have htrace := Trace.cons label hstep (.nil next)
  rwa [List.append_nil] at htrace

theorem append (first : Trace system state events middle)
    (second : Trace system middle others final) : Trace system state (events ++ others) final := by
  induction first with
  | nil _ => exact second
  | cons label hstep _ ih =>
      rw [List.append_assoc]
      exact .cons label hstep (ih second)

end Trace

/-- Every step of the first system is answered by steps of the second that show
the same and lead to related states. -/
def Simulates (low : Shown σ ι ε) (high : Shown τ κ ε) (related : σ → τ → Prop) : Prop :=
  ∀ label state next abstract, related state abstract → low.step label state = some next →
    ∃ answer, Trace high abstract (low.shows label state) answer ∧ related next answer

variable {low : Shown σ ι ε} {high : Shown τ κ ε} {related : σ → τ → Prop}

/-- So the second system has every trace of the first. -/
theorem Simulates.trace (simulates : Simulates low high related) {state final : σ} {abstract : τ}
    {events : List ε} (htrace : Trace low state events final) (hrelated : related state abstract) :
    ∃ answer, Trace high abstract events answer ∧ related final answer := by
  induction htrace generalizing abstract with
  | nil _ => exact ⟨abstract, .nil abstract, hrelated⟩
  | cons label hstep _ ih =>
      obtain ⟨middle, first, hmiddle⟩ := simulates label _ _ abstract hrelated hstep
      obtain ⟨answer, second, hanswer⟩ := ih hmiddle
      exact ⟨answer, first.append second, hanswer⟩

end Shown

end ClusteredPoller.Library
