import Mathlib.Logic.Basic

/-!
# Locks on threads that are interrupted

A thread runs its own code or, on top of it, the latest of its handlers; what is
interrupted stands still.  A lock is owned by the thread that is in a critical
section.  As long as nothing interrupts an owner, whatever is interrupted is in
no critical section, and so every owner can give the lock back.
-/

namespace ClusteredPoller.Library.Interrupts

/-- A lock, the steps that are left in the critical section of each thread's own
code, and the handlers that run on each thread, the latest one first. -/
structure View (Thread Frame : Type) where
  lock : Option Thread
  own : Thread → Nat
  frames : Thread → List Frame

/-- A step of the thread, whose critical steps it changes. -/
inductive LockStep {Thread : Type} (thread : Thread) (lock lock' : Option Thread)
    (before after : Nat) : Prop where
  | acquires (hfree : lock = none) (hlock : lock' = some thread) (hbefore : before = 0)
      (hafter : 0 < after)
  | outside (hlock : lock' = lock) (hbefore : before = 0) (hafter : after = 0)
  | inside (hlock : lock' = lock) (hbefore : before = after + 1) (hafter : 0 < after)
  | releases (hlock : lock' = none) (hbefore : before = 1) (hafter : after = 0)

section Critical

variable {Thread Frame : Type} (left : Frame → Nat)

/-- The critical steps of what runs on the thread, where a handler has so many
left. -/
def View.critical (view : View Thread Frame) (thread : Thread) : Nat :=
  match view.frames thread with
  | [] => view.own thread
  | frame :: _ => left frame

/-- The lock is owned by the thread that is in a critical section, and what is
interrupted is in none. -/
structure Sound (view : View Thread Frame) : Prop where
  owner : ∀ thread, view.lock = some thread ↔ 0 < view.critical left thread
  ownSuspended : ∀ thread, view.frames thread ≠ [] → view.own thread = 0
  frameSuspended : ∀ thread, ∀ frame ∈ (view.frames thread).tail, left frame = 0

end Critical

variable {Thread Frame : Type} {left : Frame → Nat} {view next : View Thread Frame}
  {thread : Thread}

theorem critical_of_idle (hidle : view.frames thread = []) :
    view.critical left thread = view.own thread := by
  rw [View.critical, hidle]

theorem critical_of_frame {frame : Frame} {frames : List Frame}
    (hframes : view.frames thread = frame :: frames) : view.critical left thread = left frame := by
  rw [View.critical, hframes]

theorem critical_congr (hframes : next.frames thread = view.frames thread)
    (hown : next.own thread = view.own thread) :
    next.critical left thread = view.critical left thread := by
  rw [View.critical, View.critical, hframes, hown]

/-- The thread that makes the step takes the lock, keeps it or gives it back. -/
theorem owner_step (owner : ∀ thread, view.lock = some thread ↔ 0 < view.critical left thread)
    (lock : LockStep thread view.lock next.lock (view.critical left thread)
      (next.critical left thread))
    (hothers : ∀ other, other ≠ thread → next.critical left other = view.critical left other)
    (other : Thread) : next.lock = some other ↔ 0 < next.critical left other := by
  by_cases hother : other = thread
  · subst hother
    cases lock with
    | acquires _ hlock _ hafter => exact iff_of_true hlock hafter
    | outside hlock hbefore hafter => rw [hlock, owner other, hbefore, hafter]
    | inside hlock hbefore hafter =>
        rw [hlock, owner other, hbefore]
        exact iff_of_true (Nat.succ_pos _) hafter
    | releases hlock _ hafter =>
        rw [hlock, hafter]
        exact iff_of_false (fun impossible => nomatch impossible) (Nat.lt_irrefl 0)
  · rw [hothers other hother, ← owner other]
    cases lock with
    | acquires hfree hlock _ _ =>
        rw [hfree, hlock, Option.some.injEq]
        exact iff_of_false (fun hsame => hother hsame.symm) fun impossible => nomatch impossible
    | outside hlock _ _ => rw [hlock]
    | inside hlock _ _ => rw [hlock]
    | releases hlock hbefore _ =>
        have howned : view.lock = some thread := (owner thread).mpr (hbefore ▸ Nat.zero_lt_one)
        rw [hlock, howned, Option.some.injEq]
        exact iff_of_false (fun impossible => nomatch impossible) fun hsame => hother hsame.symm

/-- The frames of one thread change. -/
theorem Sound.changes (sound : Sound left view)
    (hown : ∀ other, other ≠ thread → next.own other = view.own other)
    (hframes : ∀ other, other ≠ thread → next.frames other = view.frames other)
    (lock : LockStep thread view.lock next.lock (view.critical left thread)
      (next.critical left thread))
    (hsuspended : next.frames thread ≠ [] → next.own thread = 0)
    (hbelow : ∀ frame ∈ (next.frames thread).tail, left frame = 0) : Sound left next := by
  refine ⟨?_, ?_, ?_⟩
  · exact owner_step sound.owner lock fun other hother =>
      critical_congr (hframes other hother) (hown other hother)
  · intro other hinterrupted
    by_cases hsame : other = thread
    · subst hsame
      exact hsuspended hinterrupted
    · rw [hframes other hsame] at hinterrupted
      rw [hown other hsame]
      exact sound.ownSuspended other hinterrupted
  · intro other frame hframe
    by_cases hsame : other = thread
    · subst hsame
      exact hbelow frame hframe
    · rw [hframes other hsame] at hframe
      exact sound.frameSuspended other frame hframe

/-- A thread makes a step of its own code. -/
theorem Sound.runs (sound : Sound left view) (hidle : view.frames thread = [])
    (lock : LockStep thread view.lock next.lock (view.own thread) (next.own thread))
    (hframes : next.frames = view.frames)
    (hothers : ∀ other, other ≠ thread → next.own other = view.own other) : Sound left next := by
  have hidle' : next.frames thread = [] := by rw [hframes, hidle]
  refine sound.changes hothers (fun other _ => by rw [hframes]) ?_ (absurd hidle') ?_
  · rw [critical_of_idle hidle, critical_of_idle hidle']
    exact lock
  · rw [hidle']
    exact fun frame hframe => absurd hframe List.not_mem_nil

section Handlers

variable {frame after : Frame} {frames : List Frame}

/-- The topmost handler goes on. -/
theorem Sound.advances (sound : Sound left view) (hbefore : view.frames thread = frame :: frames)
    (hafter : next.frames thread = after :: frames) (hown : next.own = view.own)
    (hothers : ∀ other, other ≠ thread → next.frames other = view.frames other)
    (lock : LockStep thread view.lock next.lock (left frame) (left after)) : Sound left next := by
  have hinterrupted : view.frames thread ≠ [] := hbefore ▸ List.cons_ne_nil _ _
  have hbelow := sound.frameSuspended thread
  refine sound.changes (fun other _ => by rw [hown]) hothers ?_ (fun _ => ?_) ?_
  · rw [critical_of_frame hbefore, critical_of_frame hafter]
    exact lock
  · rw [hown]
    exact sound.ownSuspended thread hinterrupted
  · rw [hafter]
    rw [hbefore] at hbelow
    exact hbelow

/-- What a handler returns to is in no critical section. -/
theorem Sound.critical_below (sound : Sound left view)
    (hbefore : view.frames thread = frame :: frames) (hafter : next.frames thread = frames)
    (hown : next.own = view.own) : next.critical left thread = 0 := by
  cases frames with
  | nil =>
      rw [critical_of_idle hafter, hown]
      exact sound.ownSuspended thread (hbefore ▸ List.cons_ne_nil _ _)
  | cons below frames =>
      rw [critical_of_frame hafter]
      refine sound.frameSuspended thread below ?_
      rw [hbefore]
      exact List.mem_cons_self

/-- The topmost handler returns. -/
theorem Sound.returns (sound : Sound left view) (hbefore : view.frames thread = frame :: frames)
    (hafter : next.frames thread = frames) (hown : next.own = view.own)
    (hothers : ∀ other, other ≠ thread → next.frames other = view.frames other)
    (lock : LockStep thread view.lock next.lock (left frame) 0) : Sound left next := by
  have hinterrupted : view.frames thread ≠ [] := hbefore ▸ List.cons_ne_nil _ _
  have hbelow := sound.frameSuspended thread
  refine sound.changes (fun other _ => by rw [hown]) hothers ?_ (fun _ => ?_) ?_
  · rw [critical_of_frame hbefore, sound.critical_below hbefore hafter hown]
    exact lock
  · rw [hown]
    exact sound.ownSuspended thread hinterrupted
  · rw [hafter]
    rw [hbefore] at hbelow
    exact fun frame hframe => hbelow frame (List.mem_of_mem_tail hframe)

/-- A handler interrupts a thread that does not own the lock. -/
theorem Sound.interrupts (sound : Sound left view) (hspared : view.lock ≠ some thread)
    (hlock : next.lock = view.lock) (hown : next.own = view.own)
    (hself : next.frames thread = frame :: view.frames thread)
    (hothers : ∀ other, other ≠ thread → next.frames other = view.frames other)
    (houtside : left frame = 0) : Sound left next := by
  have hzero : view.critical left thread = 0 :=
    Nat.eq_zero_of_not_pos fun hpositive => hspared ((sound.owner thread).mpr hpositive)
  refine sound.changes (fun other _ => by rw [hown]) hothers ?_ (fun _ => ?_) ?_
  · rw [hzero, critical_of_frame hself, houtside]
    exact .outside hlock rfl rfl
  · rw [hown]
    cases hframes : view.frames thread with
    | nil => exact (critical_of_idle hframes).symm.trans hzero
    | cons top frames => exact sound.ownSuspended thread (hframes ▸ List.cons_ne_nil _ _)
  · rw [hself, List.tail_cons]
    intro below hbelow
    cases hframes : view.frames thread with
    | nil =>
        rw [hframes] at hbelow
        exact absurd hbelow List.not_mem_nil
    | cons top frames =>
        rw [hframes] at hbelow
        rcases List.mem_cons.mp hbelow with rfl | hframe
        · exact (critical_of_frame hframes).symm.trans hzero
        · refine sound.frameSuspended thread below ?_
          rw [hframes]
          exact hframe

end Handlers

end ClusteredPoller.Library.Interrupts
