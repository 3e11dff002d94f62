/-!
# Machines with replies

A machine answers each call with a reply and a next state.  A finite sequence
of calls is run from left to right, and a relation that every single call
respects is respected by every run.  Nothing here depends on what the states,
calls or replies are.
-/

namespace ClusteredPoller.Library.Machine

variable {σ τ ι ο : Type}

/-- Answer the calls in order, collecting the replies. -/
def run (perform : σ → ι → ο × σ) : σ → List ι → List ο × σ
  | state, [] => ([], state)
  | state, call :: calls =>
      let answered := perform state call
      let rest := run perform answered.2 calls
      (answered.1 :: rest.1, rest.2)

@[simp]
theorem run_cons (perform : σ → ι → ο × σ) (state : σ) (call : ι) (calls : List ι) :
    run perform state (call :: calls) =
      ((perform state call).1 :: (run perform (perform state call).2 calls).1,
        (run perform (perform state call).2 calls).2) := rfl

/-- `related` is a simulation when related states give equal replies to every
call and stay related. -/
structure Simulation (concrete : σ → ι → ο × σ) (abstract : τ → ι → ο × τ)
    (related : σ → τ → Prop) : Prop where
  reply : ∀ {low high} call, related low high →
    (concrete low call).1 = (abstract high call).1
  next : ∀ {low high} call, related low high →
    related (concrete low call).2 (abstract high call).2

/-- A simulation lifts from one call to every finite sequence of calls. -/
theorem Simulation.run {concrete : σ → ι → ο × σ} {abstract : τ → ι → ο × τ}
    {related : σ → τ → Prop} (simulation : Simulation concrete abstract related)
    {low : σ} {high : τ} (hrelated : related low high) (calls : List ι) :
    (Machine.run concrete low calls).1 = (Machine.run abstract high calls).1 ∧
      related (Machine.run concrete low calls).2 (Machine.run abstract high calls).2 := by
  induction calls generalizing low high with
  | nil => exact ⟨rfl, hrelated⟩
  | cons call calls ih =>
      obtain ⟨replies, final⟩ := ih (simulation.next call hrelated)
      refine ⟨?_, final⟩
      rw [run_cons, run_cons, simulation.reply call hrelated, replies]

end ClusteredPoller.Library.Machine
