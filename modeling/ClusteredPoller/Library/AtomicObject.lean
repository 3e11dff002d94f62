import ClusteredPoller.Library.Trace
import Mathlib.Logic.Function.Basic

/-!
# Objects that answer calls at one moment

Clients call an object, wait, and get a reply.  An object is atomic if each
call takes effect at one moment between the call and the reply.  Its traces are
the linearizable histories of the calls: whatever has the same traces cannot be
told from an object that serves one call at a time.
-/

namespace ClusteredPoller.Library.AtomicObject

variable {σ τ κ ρ : Type}

/-- What a client has to do with the object. -/
inductive Phase (κ ρ : Type) where
  | idle
  | called (call : κ)
  /-- The call has taken effect. -/
  | answered (reply : ρ)

structure State (σ τ κ ρ : Type) where
  object : σ
  phases : τ → Phase κ ρ

inductive Label (τ κ : Type) where
  | invoke (client : τ) (call : κ)
  | perform (client : τ)
  | respond (client : τ)

/-- What the clients see. -/
inductive Event (τ κ ρ : Type) where
  | invoked (client : τ) (call : κ)
  | responded (client : τ) (reply : ρ)
  deriving DecidableEq

def start (object : σ) : State σ τ κ ρ where
  object := object
  phases _ := .idle

variable [DecidableEq τ]

def State.enter (s : State σ τ κ ρ) (client : τ) (phase : Phase κ ρ) : State σ τ κ ρ :=
  { s with phases := Function.update s.phases client phase }

/-- `perform` is what a call does and what it is answered. -/
def step (perform : σ → κ → ρ × σ) :
    Label τ κ → State σ τ κ ρ → Option (State σ τ κ ρ)
  | .invoke client call, s =>
      match s.phases client with
      | .idle => some (s.enter client (.called call))
      | _ => none
  | .perform client, s =>
      match s.phases client with
      | .called call =>
          some ({ s with object := (perform s.object call).2 }.enter client
            (.answered (perform s.object call).1))
      | _ => none
  | .respond client, s =>
      match s.phases client with
      | .answered _ => some (s.enter client .idle)
      | _ => none

def shows : Label τ κ → State σ τ κ ρ → List (Event τ κ ρ)
  | .invoke client call, _ => [.invoked client call]
  | .perform _, _ => []
  | .respond client, s =>
      match s.phases client with
      | .answered reply => [.responded client reply]
      | _ => []

def system (perform : σ → κ → ρ × σ) : Shown (State σ τ κ ρ) (Label τ κ) (Event τ κ ρ) where
  step := step perform
  shows := shows

section Traces

variable {perform : σ → κ → ρ × σ} {s : State σ τ κ ρ} {client : τ}

theorem trace_invoke (hidle : s.phases client = .idle) (call : κ) :
    (system perform).Trace s [.invoked client call] (s.enter client (.called call)) :=
  @Shown.Trace.single _ _ _ (system perform) s _ (.invoke client call)
    (by simp only [system, step, hidle])

theorem trace_perform {call : κ} (hcalled : s.phases client = .called call) :
    (system perform).Trace s []
      ({ s with object := (perform s.object call).2 }.enter client
        (.answered (perform s.object call).1)) :=
  @Shown.Trace.single _ _ _ (system perform) s _ (.perform client)
    (by simp only [system, step, hcalled])

theorem trace_respond {reply : ρ} (hanswered : s.phases client = .answered reply) :
    (system perform).Trace s [.responded client reply] (s.enter client .idle) := by
  have htrace := @Shown.Trace.single _ _ _ (system perform) s _ (.respond client)
    (by simp only [system, step, hanswered]; rfl)
  simp only [system, shows, hanswered] at htrace
  exact htrace

end Traces

end ClusteredPoller.Library.AtomicObject
