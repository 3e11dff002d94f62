import ClusteredPoller.Library.AtomicObject

/-!
# Memory under a recursive lock

Threads call functions that take a lock, access a shared memory one step at a
time, and give the lock back.  The owner of the lock may take it again; it is
free once it was given back as often as it was taken.

A function whose accesses all lie between its first lock and the matching
unlock takes effect at one moment, whatever the other threads do: what it does
alone is what it does among them.
-/

namespace ClusteredPoller.Library.Locking

open AtomicObject (Event Phase)
open Transition (Reaches)

/-- What is left to do of a call. -/
inductive Program (μ ρ : Type) where
  | lock (next : Program μ ρ)
  | unlock (next : Program μ ρ)
  /-- One access, which is a fault where it is not valid.  What follows may
  depend on the memory that it finds. -/
  | access (valid : μ → Bool) (effect : μ → μ) (next : μ → Program μ ρ)
  | reply (value : ρ)

namespace Program

variable {μ ρ θ : Type}

/-- Read something that is always there. -/
def read {α : Type} (what : μ → α) (next : α → Program μ ρ) : Program μ ρ :=
  .access (fun _ => true) id fun memory => next (what memory)

/-- Write where it is always allowed. -/
def write (effect : μ → μ) (next : Program μ ρ) : Program μ ρ :=
  .access (fun _ => true) effect fun _ => next

/-- Call a function and go on with its reply. -/
def bind : Program μ ρ → (ρ → Program μ θ) → Program μ θ
  | .lock next, rest => .lock (next.bind rest)
  | .unlock next, rest => .unlock (next.bind rest)
  | .access valid effect next, rest => .access valid effect fun memory => (next memory).bind rest
  | .reply value, rest => rest value

/-- What the program does while the lock is taken some number of times and no
other thread interferes: how often the lock is taken at its end, the memory, and
the reply.  There is nothing if it faults, or is not under the lock. -/
def alone : Nat → Program μ ρ → μ → Option (Nat × μ × ρ)
  | depth, .reply value, memory => some (depth, memory, value)
  | 0, _, _ => none
  | depth + 1, .lock next, memory => alone (depth + 2) next memory
  | depth + 1, .unlock next, memory => alone depth next memory
  | depth + 1, .access valid effect next, memory =>
      if valid memory then alone (depth + 1) (next memory) (effect memory) else none

section Alone

variable {depth : Nat} {memory : μ}

@[simp]
theorem alone_reply (value : ρ) :
    (reply value : Program μ ρ).alone depth memory = some (depth, memory, value) := by
  cases depth <;> rfl

@[simp]
theorem alone_lock (next : Program μ ρ) :
    (lock next).alone (depth + 1) memory = next.alone (depth + 2) memory := rfl

@[simp]
theorem alone_unlock (next : Program μ ρ) :
    (unlock next).alone (depth + 1) memory = next.alone depth memory := rfl

@[simp]
theorem alone_read {α : Type} (what : μ → α) (next : α → Program μ ρ) :
    (read what next).alone (depth + 1) memory = (next (what memory)).alone (depth + 1) memory := rfl

@[simp]
theorem alone_write (effect : μ → μ) (next : Program μ ρ) :
    (write effect next).alone (depth + 1) memory = next.alone (depth + 1) (effect memory) := rfl

theorem alone_access {valid : μ → Bool} (hvalid : valid memory = true) (effect : μ → μ)
    (next : μ → Program μ ρ) :
    (access valid effect next).alone (depth + 1) memory =
      (next memory).alone (depth + 1) (effect memory) := if_pos hvalid

/-- Without the lock, a program that does anything is not alone. -/
theorem alone_zero {program : Program μ ρ} {outcome : Nat × μ × ρ}
    (halone : program.alone 0 memory = some outcome) : program = .reply outcome.2.2 ∧
      outcome.2.1 = memory := by
  cases program with
  | reply value =>
      rw [alone_reply] at halone
      cases halone
      exact ⟨rfl, rfl⟩
  | lock next => cases halone
  | unlock next => cases halone
  | access valid effect next => cases halone

/-- A call and what follows it. -/
theorem alone_bind {program : Program μ ρ} {depth' : Nat} {memory' : μ} {value : ρ}
    (halone : program.alone depth memory = some (depth', memory', value))
    (rest : ρ → Program μ θ) :
    (program.bind rest).alone depth memory = (rest value).alone depth' memory' := by
  induction program generalizing depth memory with
  | reply other =>
      rw [alone_reply] at halone
      cases halone
      rfl
  | lock next ih =>
      cases depth with
      | zero => cases halone
      | succ depth => exact ih halone
  | unlock next ih =>
      cases depth with
      | zero => cases halone
      | succ depth => exact ih halone
  | access valid effect next ih =>
      cases depth with
      | zero => cases halone
      | succ depth =>
          rw [alone] at halone
          split at halone
          · rename_i hvalid
            rw [bind, alone_access hvalid]
            exact ih memory halone
          · cases halone

end Alone

end Program

/-! ## Threads -/

structure State (μ τ ρ : Type) where
  memory : μ
  owner : Option τ
  /-- How often the owner has taken the lock. -/
  depth : Nat
  /-- The calls that threads are in. -/
  frames : τ → Option (Program μ ρ)
  faulted : Bool

inductive Label (τ κ : Type) where
  | invoke (thread : τ) (call : κ)
  | advance (thread : τ)

variable {μ τ κ ρ σ : Type}

def start (memory : μ) : State μ τ ρ where
  memory := memory
  owner := none
  depth := 0
  frames _ := none
  faulted := false

section System

variable [DecidableEq τ]

def State.goto (s : State μ τ ρ) (thread : τ) (frame : Option (Program μ ρ)) : State μ τ ρ :=
  { s with frames := Function.update s.frames thread frame }

/-- The next step of a call. -/
def advance (s : State μ τ ρ) (thread : τ) : Program μ ρ → Option (State μ τ ρ)
  | .lock next =>
      match s.owner with
      | none => some { s.goto thread (some next) with owner := some thread, depth := 1 }
      | some owner =>
          if owner = thread then some { s.goto thread (some next) with depth := s.depth + 1 }
          else none
  | .unlock next =>
      -- The lock refuses a thread that does not own it.
      if s.owner = some thread then
        some { s.goto thread (some next) with
          owner := if s.depth = 1 then none else s.owner
          depth := s.depth - 1 }
      else some (s.goto thread (some next))
  | .access valid effect next =>
      if valid s.memory then
        some { s.goto thread (some (next s.memory)) with memory := effect s.memory }
      else some { s with faulted := true }
  | .reply _ => some (s.goto thread none)

def step (code : κ → Program μ ρ) : Label τ κ → State μ τ ρ → Option (State μ τ ρ)
  | .invoke thread call, s =>
      match s.faulted, s.frames thread with
      | false, none => some (s.goto thread (some (code call)))
      | _, _ => none
  | .advance thread, s =>
      match s.faulted, s.frames thread with
      | false, some program => advance s thread program
      | _, _ => none

def shows : Label τ κ → State μ τ ρ → List (Event τ κ ρ)
  | .invoke thread call, _ => [.invoked thread call]
  | .advance thread, s =>
      match s.frames thread with
      | some (.reply value) => [.responded thread value]
      | _ => []

def system (code : κ → Program μ ρ) : Shown (State μ τ ρ) (Label τ κ) (Event τ κ ρ) where
  step := step code
  shows := shows

end System

/-! ## Calls that take effect at one moment -/

/-- Alone, a call does to the memory what `perform` does to the object that the
memory represents.  It holds the lock from its first access to its last one. -/
inductive Serves (perform : σ → κ → ρ × σ) (represents : μ → σ → Prop) (call : κ) :
    Program μ ρ → Prop where
  | immediate (value : ρ) (hperform : ∀ object, perform object call = (value, object)) :
      Serves perform represents call (.reply value)
  | locked (body : Program μ ρ)
      (hbody : ∀ memory object, represents memory object → ∃ memory',
        body.alone 1 memory = some (0, memory', (perform object call).1) ∧
          represents memory' (perform object call).2) :
      Serves perform represents call (.lock body)

/-- A thread without the lock. -/
inductive Outside (code : κ → Program μ ρ) : Option (Program μ ρ) → Phase κ ρ → Prop where
  | idle : Outside code none .idle
  | called (call : κ) : Outside code (some (code call)) (.called call)
  | answered (value : ρ) : Outside code (some (.reply value)) (.answered value)

/-- What the owner of the lock does alone leads to the object that its call has
left, and to the reply that its call has got. -/
structure Held (represents : μ → σ → Prop) (s : State μ τ ρ) (thread : τ) (object : σ)
    (value : ρ) : Prop where
  depth : 0 < s.depth
  alone : ∃ program memory, s.frames thread = some program ∧
    program.alone s.depth s.memory = some (0, memory, value) ∧ represents memory object

/-- The call of the owner took effect when the lock was taken. -/
structure Related (code : κ → Program μ ρ) (represents : μ → σ → Prop) (s : State μ τ ρ)
    (a : AtomicObject.State σ τ κ ρ) : Prop where
  sound : s.faulted = false
  free : s.owner = none → represents s.memory a.object
  held : ∀ thread, s.owner = some thread → ∃ value, a.phases thread = .answered value ∧
    Held represents s thread a.object value
  outside : ∀ thread, s.owner ≠ some thread → Outside code (s.frames thread) (a.phases thread)

/-! ## What one step does -/

section Steps

variable {code : κ → Program μ ρ} {perform : σ → κ → ρ × σ} {represents : μ → σ → Prop}
  {s : State μ τ ρ} {a : AtomicObject.State σ τ κ ρ} {thread : τ}

theorem start_related {memory : μ} {object : σ} (hrepresents : represents memory object) :
    Related (τ := τ) code represents (start memory) (AtomicObject.start object) where
  sound := rfl
  free _ := hrepresents
  held _ howner := nomatch howner
  outside _ _ := .idle

theorem Related.frame_of_held (related : Related code represents s a)
    (howner : s.owner = some thread) : ∃ program, s.frames thread = some program := by
  obtain ⟨_, _, hheld⟩ := related.held thread howner
  obtain ⟨program, _, hframe, _⟩ := hheld.alone
  exact ⟨program, hframe⟩

variable [DecidableEq τ]

/-- A thread without the lock goes on without it. -/
theorem Related.outsider (related : Related code represents s a)
    (howner : s.owner ≠ some thread) {frame : Option (Program μ ρ)} {phase : Phase κ ρ}
    (houtside : Outside code frame phase) :
    Related code represents (s.goto thread frame) (a.enter thread phase) where
  sound := related.sound
  free := related.free
  held other hother := by
    have hne : other ≠ thread := fun heq => howner (heq ▸ hother)
    obtain ⟨value, hphase, hdepth, program, memory, hframe, halone⟩ := related.held other hother
    refine ⟨value, ?_, hdepth, program, memory, ?_, halone⟩
    · exact (Function.update_of_ne hne _ _).trans hphase
    · exact (Function.update_of_ne hne _ _).trans hframe
  outside other hother := by
    by_cases heq : other = thread
    · subst heq
      change Outside code (Function.update s.frames other frame other)
        (Function.update a.phases other phase other)
      rw [Function.update_self, Function.update_self]
      exact houtside
    · change Outside code (Function.update s.frames thread frame other)
        (Function.update a.phases thread phase other)
      rw [Function.update_of_ne heq, Function.update_of_ne heq]
      exact related.outside other hother

/-- The owner of the lock goes on with it. -/
theorem Related.owner (related : Related code represents s a) (howner : s.owner = some thread)
    {program next : Program μ ρ} (hframe : s.frames thread = some program) {depth : Nat}
    {memory : μ} (hdepth : 0 < depth)
    (halone : next.alone depth memory = program.alone s.depth s.memory) :
    Related code represents
      { s.goto thread (some next) with memory := memory, depth := depth } a where
  sound := related.sound
  free hnone := nomatch howner.symm.trans hnone
  held other hother := by
    have heq : thread = other := Option.some.inj (howner.symm.trans hother)
    subst heq
    obtain ⟨value, hphase, _, program', memory', hframe', halone', hrepresents⟩ :=
      related.held thread howner
    cases hframe.symm.trans hframe'
    exact ⟨value, hphase, hdepth, next, memory', Function.update_self _ _ _,
      halone.trans halone', hrepresents⟩
  outside other hother := by
    have hne : other ≠ thread := fun heq => hother (heq ▸ howner)
    change Outside code (Function.update s.frames thread (some next) other) (a.phases other)
    rw [Function.update_of_ne hne]
    exact related.outside other hother

/-- The last unlock: the memory now represents what the call has left. -/
theorem Related.releases (related : Related code represents s a) (howner : s.owner = some thread)
    {next : Program μ ρ} (hframe : s.frames thread = some (.unlock next)) (hdepth : s.depth = 1) :
    Related code represents { s.goto thread (some next) with owner := none, depth := 0 } a := by
  obtain ⟨value, hphase, _, program, memory, hframe', halone, hrepresents⟩ :=
    related.held thread howner
  cases hframe.symm.trans hframe'
  rw [hdepth, Program.alone_unlock] at halone
  obtain ⟨hreply, hmemory⟩ := Program.alone_zero halone
  dsimp only at hreply hmemory
  subst hreply hmemory
  refine ⟨related.sound, fun _ => hrepresents, (fun _ hother => nomatch hother), ?_⟩
  intro other _
  by_cases heq : other = thread
  · subst heq
    change Outside code (Function.update s.frames other (some (.reply value)) other)
      (a.phases other)
    rw [Function.update_self, hphase]
    exact .answered value
  · change Outside code (Function.update s.frames thread (some (.reply value)) other)
      (a.phases other)
    rw [Function.update_of_ne heq]
    exact related.outside other fun hother => heq (Option.some.inj (hother.symm.trans howner))

/-- The first lock: the call takes effect. -/
theorem Related.acquires (related : Related code represents s a) (howner : s.owner = none)
    {call : κ} {body : Program μ ρ}
    (hbody : ∀ memory object, represents memory object → ∃ memory',
      body.alone 1 memory = some (0, memory', (perform object call).1) ∧
        represents memory' (perform object call).2) :
    Related code represents
      { s.goto thread (some body) with owner := some thread, depth := 1 }
      ({ a with object := (perform a.object call).2 }.enter thread
        (.answered (perform a.object call).1)) where
  sound := related.sound
  free hnone := nomatch hnone
  held other hother := by
    have heq : thread = other := Option.some.inj hother
    subst heq
    obtain ⟨memory', halone, hrepresents⟩ := hbody s.memory a.object (related.free howner)
    exact ⟨_, Function.update_self _ _ _, Nat.one_pos, body, memory', Function.update_self _ _ _,
      halone, hrepresents⟩
  outside other hother := by
    have hne : other ≠ thread := fun heq => hother (congrArg some heq.symm)
    change Outside code (Function.update s.frames thread (some body) other)
      (Function.update a.phases thread _ other)
    rw [Function.update_of_ne hne, Function.update_of_ne hne]
    exact related.outside other (by rw [howner]; nofun)

/-! ## The atomic object behind the lock -/

theorem invoke_answered (related : Related code represents s a) {call : κ}
    {next : State μ τ ρ} (hstep : step code (.invoke thread call) s = some next) :
    ∃ answer, (AtomicObject.system perform).Trace a [.invoked thread call] answer ∧
      Related code represents next answer := by
  rw [step] at hstep
  split at hstep
  · rename_i hframe
    cases hstep
    have howner : s.owner ≠ some thread := by
      intro howner
      obtain ⟨program, hprogram⟩ := related.frame_of_held howner
      cases hframe.symm.trans hprogram
    have houtside := related.outside thread howner
    rw [hframe] at houtside
    generalize hphase : a.phases thread = phase at houtside
    cases houtside
    exact ⟨_, AtomicObject.trace_invoke hphase call, related.outsider howner (.called call)⟩
  · cases hstep

/-- Steps of the owner are not seen. -/
theorem owner_answered (related : Related code represents s a) (howner : s.owner = some thread)
    {program : Program μ ρ} (hframe : s.frames thread = some program) {next : State μ τ ρ}
    (hstep : advance s thread program = some next) :
    shows (κ := κ) (.advance thread) s = [] ∧ Related code represents next a := by
  obtain ⟨value, -, hdepth, program', memory, hframe', halone, -⟩ := related.held thread howner
  cases hframe.symm.trans hframe'
  obtain ⟨depth, hsucc⟩ := Nat.exists_eq_succ_of_ne_zero (Nat.ne_of_gt hdepth)
  rw [Nat.succ_eq_add_one] at hsucc
  rw [shows, hframe]
  cases program with
  | lock inner =>
      rw [advance, howner] at hstep
      simp only [if_true] at hstep
      cases hstep
      refine ⟨rfl, related.owner howner hframe (Nat.succ_pos _) ?_⟩
      rw [hsucc]
      rfl
  | unlock inner =>
      rw [advance, if_pos howner] at hstep
      cases hstep
      refine ⟨rfl, ?_⟩
      cases depth with
      | zero =>
          rw [hsucc, if_pos rfl]
          exact related.releases howner hframe hsucc
      | succ depth =>
          rw [hsucc, if_neg (by omega), howner, Nat.add_sub_cancel, ← howner]
          refine related.owner howner hframe (Nat.succ_pos _) ?_
          rw [hsucc]
          rfl
  | access valid effect inner =>
      rw [hsucc, Program.alone] at halone
      split at halone
      · rename_i hvalid
        rw [advance, if_pos hvalid] at hstep
        cases hstep
        refine ⟨rfl, related.owner howner hframe hdepth ?_⟩
        rw [hsucc, Program.alone_access hvalid]
        change Program.alone s.depth _ _ = _
        rw [hsucc]
      · cases halone
  | reply other =>
      rw [hsucc, Program.alone_reply] at halone
      cases halone

theorem outsider_answered (hserves : ∀ call, Serves perform represents call (code call))
    (related : Related code represents s a) (howner : s.owner ≠ some thread)
    {program : Program μ ρ} (hframe : s.frames thread = some program) {next : State μ τ ρ}
    (hstep : advance s thread program = some next) :
    ∃ answer, (AtomicObject.system perform).Trace a (shows (.advance thread) s) answer ∧
      Related code represents next answer := by
  have houtside := related.outside thread howner
  rw [hframe] at houtside
  rw [shows, hframe]
  generalize hphase : a.phases thread = phase at houtside
  cases houtside with
  | called call =>
      have hcall := hserves call
      generalize code call = program at hcall hstep hframe
      cases hcall with
      | immediate value hperform =>
          cases hstep
          have hperformed : (AtomicObject.system perform).Trace a [] _ :=
            AtomicObject.trace_perform hphase
          rw [hperform] at hperformed
          have hanswered : Related code represents s (a.enter thread (.answered value)) := by
            have hsame : s.goto thread (some (.reply value)) = s := by
              rw [State.goto, ← hframe, Function.update_eq_self]
            have hgoto : Related code represents _ (a.enter thread (.answered value)) :=
              related.outsider howner (.answered value)
            rwa [hsame] at hgoto
          exact ⟨_, hperformed.append (AtomicObject.trace_respond (Function.update_self _ _ _)),
            hanswered.outsider howner .idle⟩
      | locked body hbody =>
          rw [advance] at hstep
          split at hstep
          · rename_i hnone
            cases hstep
            exact ⟨_, AtomicObject.trace_perform hphase, related.acquires hnone hbody⟩
          · rename_i other hother
            split at hstep
            · rename_i heq
              exact absurd (heq ▸ hother) howner
            · cases hstep
  | answered value =>
      cases hstep
      exact ⟨_, AtomicObject.trace_respond hphase, related.outsider howner .idle⟩

/-- Calls that serve an object under a lock make it an atomic object: whatever
happens among the threads can be explained by calls that take effect one at a
time. -/
theorem simulates (hserves : ∀ call, Serves perform represents call (code call)) :
    Shown.Simulates (system (τ := τ) code) (AtomicObject.system perform)
      (Related code represents) := by
  intro label s next a related hstep
  cases label with
  | invoke thread call => exact invoke_answered related hstep
  | advance thread =>
      change step code (.advance thread) s = some next at hstep
      change ∃ answer, (AtomicObject.system perform).Trace a (shows (.advance thread) s) answer ∧ _
      rw [step] at hstep
      split at hstep
      · rename_i program hframe
        by_cases howner : s.owner = some thread
        · obtain ⟨hshows, hnext⟩ := owner_answered related howner hframe hstep
          rw [hshows]
          exact ⟨a, .nil a, hnext⟩
        · exact outsider_answered hserves related howner hframe hstep
      · cases hstep

/-! ## Every call can end -/

theorem step_advance (hsound : s.faulted = false) {program : Program μ ρ}
    (hframe : s.frames thread = some program) :
    step code (.advance thread) s = advance s thread program := by
  rw [step, hsound, hframe]

/-- The owner gives the lock back, by its own steps. -/
theorem owner_releases (code : κ → Program μ ρ) (allowed : Label τ κ → Prop)
    (hallowed : allowed (.advance thread)) {program : Program μ ρ} {memory : μ} {value : ρ}
    (hsound : s.faulted = false)
    (howner : s.owner = some thread) (hdepth : 0 < s.depth)
    (hframe : s.frames thread = some program)
    (halone : program.alone s.depth s.memory = some (0, memory, value)) :
    ∃ final, Reaches (step code) allowed s final ∧ final.owner = none ∧
      final.frames = Function.update s.frames thread (some (.reply value)) := by
  induction program generalizing s with
  | lock inner ih =>
      obtain ⟨depth, hsucc⟩ := Nat.exists_eq_succ_of_ne_zero (Nat.ne_of_gt hdepth)
      have hstep : step code (.advance thread) s =
          some { s.goto thread (some inner) with depth := s.depth + 1 } := by
        rw [step_advance hsound hframe, advance, howner]
        exact if_pos rfl
      obtain ⟨final, hreaches, hnone, hframes⟩ :=
        ih (s := { s.goto thread (some inner) with depth := s.depth + 1 }) hsound howner
          (Nat.succ_pos _) (Function.update_self _ _ _) (by rw [hsucc] at halone ⊢; exact halone)
      exact ⟨final, (Reaches.single hallowed hstep).trans hreaches, hnone,
        hframes.trans (Function.update_idem _ _ _)⟩
  | unlock inner ih =>
      obtain ⟨depth, hsucc⟩ := Nat.exists_eq_succ_of_ne_zero (Nat.ne_of_gt hdepth)
      rw [hsucc] at halone
      have hstep : step code (.advance thread) s =
          some { s.goto thread (some inner) with
            owner := if s.depth = 1 then none else s.owner
            depth := s.depth - 1 } := by
        rw [step_advance hsound hframe, advance, if_pos howner]
      cases depth with
      | zero =>
          rw [hsucc, if_pos rfl] at hstep
          obtain ⟨hreply, -⟩ := Program.alone_zero halone
          rw [hreply] at hstep
          exact ⟨_, Reaches.single hallowed hstep, rfl, rfl⟩
      | succ depth =>
          rw [hsucc, if_neg (by omega)] at hstep
          obtain ⟨final, hreaches, hnone, hframes⟩ :=
            ih (s := { s.goto thread (some inner) with
                owner := s.owner
                depth := depth + 1 + 1 - 1 })
              hsound howner (Nat.succ_pos _) (Function.update_self _ _ _) halone
          exact ⟨final, (Reaches.single hallowed hstep).trans hreaches, hnone,
            hframes.trans (Function.update_idem _ _ _)⟩
  | access valid effect inner ih =>
      obtain ⟨depth, hsucc⟩ := Nat.exists_eq_succ_of_ne_zero (Nat.ne_of_gt hdepth)
      rw [hsucc, Program.alone] at halone
      split at halone
      · rename_i hvalid
        have hstep : step code (.advance thread) s =
            some { s.goto thread (some (inner s.memory)) with memory := effect s.memory } := by
          rw [step_advance hsound hframe, advance, if_pos hvalid]
        obtain ⟨final, hreaches, hnone, hframes⟩ :=
          ih s.memory
            (s := { s.goto thread (some (inner s.memory)) with memory := effect s.memory })
            hsound howner hdepth (Function.update_self _ _ _) (by
              change Program.alone s.depth _ _ = _
              rw [hsucc]
              exact halone)
        exact ⟨final, (Reaches.single hallowed hstep).trans hreaches, hnone,
          hframes.trans (Function.update_idem _ _ _)⟩
      · cases halone
  | reply other =>
      rw [Program.alone_reply] at halone
      have hzero : s.depth = 0 := congrArg Prod.fst (Option.some.inj halone)
      exact absurd hzero (Nat.ne_of_gt hdepth)

theorem Related.of_reaches (hserves : ∀ call, Serves perform represents call (code call))
    {allowed : Label τ κ → Prop} {final : State μ τ ρ}
    (hreaches : Reaches (step code) allowed s final) (related : Related code represents s a) :
    ∃ answer, Related code represents final answer := by
  have keeps : Transition.Keeps (step code) (fun label _ => allowed label) fun state =>
      ∃ answer : AtomicObject.State σ τ κ ρ, Related code represents state answer := by
    rintro label state next - ⟨answer, hanswer⟩ hstep
    obtain ⟨answer', -, hnext⟩ := simulates hserves label state next answer hanswer hstep
    exact ⟨answer', hnext⟩
  have hfinal := hreaches.property keeps ⟨a, related⟩
  exact hfinal

theorem reply_returns (code : κ → Program μ ρ) (allowed : Label τ κ → Prop)
    (hallowed : allowed (.advance thread)) (hsound : s.faulted = false) {value : ρ}
    (hframe : s.frames thread = some (.reply value)) :
    ∃ final, Reaches (step code) allowed s final ∧ final.frames thread = none :=
  ⟨_, Reaches.single hallowed (step_advance hsound hframe), Function.update_self _ _ _⟩

/-- While the lock is free, a thread can end its call without the others. -/
theorem Related.completes_free (hserves : ∀ call, Serves perform represents call (code call))
    (related : Related code represents s a) (hnone : s.owner = none)
    (allowed : Label τ κ → Prop) (hallowed : allowed (.advance thread)) :
    ∃ final, Reaches (step code) allowed s final ∧ final.frames thread = none := by
  have houtside := related.outside thread (by rw [hnone]; nofun)
  generalize hframe : s.frames thread = frame at houtside
  generalize a.phases thread = phase at houtside
  cases houtside with
  | idle => exact ⟨s, Reaches.refl s, hframe⟩
  | answered value => exact reply_returns code allowed hallowed related.sound hframe
  | called call =>
      have hcall := hserves call
      generalize code call = program at hcall hframe
      cases hcall with
      | immediate value hperform => exact reply_returns code allowed hallowed related.sound hframe
      | locked body hbody =>
          obtain ⟨memory, halone, -⟩ := hbody s.memory a.object (related.free hnone)
          have hacquires : step code (.advance thread) s =
              some { s.goto thread (some body) with owner := some thread, depth := 1 } := by
            rw [step_advance related.sound hframe, advance, hnone]
          obtain ⟨released, hreaches, -, hframes⟩ :=
            owner_releases code allowed hallowed
              (s := { s.goto thread (some body) with owner := some thread, depth := 1 })
              related.sound rfl Nat.one_pos (Function.update_self _ _ _) halone
          have hreleased := (Reaches.single hallowed hacquires).trans hreaches
          obtain ⟨_, hrelated⟩ := related.of_reaches hserves hreleased
          obtain ⟨final, hreturns, hfinal⟩ :=
            reply_returns code allowed hallowed hrelated.sound
              (by rw [hframes]; exact Function.update_self _ _ _)
          exact ⟨final, hreleased.trans hreturns, hfinal⟩

/-- Steps of the owner of the lock, and of one more thread. -/
def State.Helpful (s : State μ τ ρ) (thread : τ) (label : Label τ κ) : Prop :=
  ∃ other, (s.owner = some other ∨ other = thread) ∧ label = .advance other

/-- A call that waits for nothing but the lock gets its reply when the owner of
the lock and its own thread take their steps. -/
theorem Related.completes (hserves : ∀ call, Serves perform represents call (code call))
    (related : Related code represents s a) (thread : τ) :
    ∃ final, Reaches (step code) (s.Helpful thread) s final ∧ final.frames thread = none := by
  have hmine : s.Helpful (κ := κ) thread (.advance thread) := ⟨thread, Or.inr rfl, rfl⟩
  cases howner : s.owner with
  | none => exact related.completes_free hserves howner _ hmine
  | some owner =>
      obtain ⟨value, -, hdepth, program, memory, hframe, halone, -⟩ := related.held owner howner
      obtain ⟨released, hreaches, hnone, -⟩ :=
        owner_releases code (s.Helpful thread) ⟨owner, Or.inl howner, rfl⟩ related.sound howner
          hdepth hframe halone
      obtain ⟨_, hrelated⟩ := related.of_reaches hserves hreaches
      obtain ⟨final, hreturns, hfinal⟩ := hrelated.completes_free hserves hnone _ hmine
      exact ⟨final, hreaches.trans hreturns, hfinal⟩

end Steps

end ClusteredPoller.Library.Locking
