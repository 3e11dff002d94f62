import ClusteredPoller.Library.Transition
import Mathlib.Algebra.Order.BigOperators.Group.Finset

/-!
# Work that is left

A number that every step of work makes smaller, and that other steps make larger
by so much only, bounds the steps of work in a run.  Where several workers share
the work, a step changes the part of one of them.
-/

namespace ClusteredPoller.Library.Work

open scoped BigOperators
open Transition

/-! ## Shared work -/

section Shared

variable {κ : Type} {workers : Finset κ} {work next : κ → Nat} {less more : Nat}

/-- The part of one worker changes, and no other part becomes larger. -/
theorem sum_shift {worker : κ} (hmember : worker ∈ workers)
    (hworker : next worker + less ≤ work worker + more)
    (hothers : ∀ other, other ≠ worker → next other ≤ work other) :
    ∑ k ∈ workers, next k + less ≤ ∑ k ∈ workers, work k + more := by
  classical
  have hrest : ∑ k ∈ workers.erase worker, next k ≤ ∑ k ∈ workers.erase worker, work k :=
    Finset.sum_le_sum fun other hother => hothers other (Finset.ne_of_mem_erase hother)
  rw [← Finset.add_sum_erase _ next hmember, ← Finset.add_sum_erase _ work hmember]
  omega

/-- Every part becomes larger by at most as much. -/
theorem sum_grow (hall : ∀ worker, next worker ≤ work worker + more) :
    ∑ k ∈ workers, next k ≤ ∑ k ∈ workers, work k + workers.card * more := by
  calc ∑ k ∈ workers, next k
      ≤ ∑ k ∈ workers, (work k + more) := Finset.sum_le_sum fun worker _ => hall worker
    _ = ∑ k ∈ workers, work k + workers.card * more := by
      rw [Finset.sum_add_distrib, Finset.sum_const_nat fun _ _ => rfl]

end Shared

/-! ## The work in a run -/

section Run

variable {σ ι : Type} {step : ι → σ → Option σ} {allowed : ι → Prop} {works asks : ι → Bool}
  {price : Nat} {invariant : σ → Prop}

/-- Allowed steps keep the invariant, steps of work do some of it, and only steps
that ask for work make more of it, at a price each. -/
theorem work_bounded (work : σ → Nat)
    (hstep : ∀ label state next, allowed label → invariant state →
      step label state = some next → invariant next ∧
        work next + (if works label then 1 else 0) ≤
          work state + (if asks label then price else 0))
    {labels : List ι} {state final : σ} (hallowed : ∀ label ∈ labels, allowed label)
    (holds : invariant state) (hrun : run step labels state = some final) :
    labels.countP works + work final ≤ work state + price * labels.countP asks := by
  induction labels generalizing state with
  | nil =>
      cases hrun
      rw [List.countP_nil, List.countP_nil, Nat.mul_zero, Nat.zero_add, Nat.add_zero]
  | cons label labels ih =>
      obtain ⟨next, hnext, hrest⟩ := run_cons_eq_some.mp hrun
      obtain ⟨hinvariant, hless⟩ :=
        hstep label state next (hallowed label List.mem_cons_self) holds hnext
      have hlater := ih (fun later hlater => hallowed later (List.mem_cons_of_mem _ hlater))
        hinvariant hrest
      have hprice : price * (labels.countP asks + if asks label = true then 1 else 0) =
          price * labels.countP asks + if asks label = true then price else 0 := by
        rw [Nat.mul_add, mul_ite, Nat.mul_one, Nat.mul_zero]
      rw [List.countP_cons, List.countP_cons, hprice]
      omega

end Run

end ClusteredPoller.Library.Work
