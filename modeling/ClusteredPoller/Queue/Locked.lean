import ClusteredPoller.Library.Locking
import ClusteredPoller.Queue.ClbufRefinement

/-!
# The circular buffer under its lock

The functions of `clbuf.c` one memory access at a time.  Any number of threads
are inside them at once, and only the recursive lock keeps them apart.
-/

namespace ClusteredPoller.Queue.Locked

open Library
open Library.BoundedFifo (Call Reply Fifo)
open Library.Locking (Program)

variable {α ρ : Type}

/-- `struct clbuf` without its lock.  Between two accesses an index may lie
outside the buffer. -/
structure Memory (α : Type) where
  allocatedSize : UInt32
  readIndex : UInt32
  writeIndex : UInt32
  buffer : List (Option α)

def clbufCreate (α : Type) (size : UInt32) : Memory α where
  allocatedSize := size
  readIndex := 0
  writeIndex := 0
  buffer := List.replicate size.toNat none

/-! ## Accesses -/

/-- Read `cb->buffer[index]`, for an index of the buffer. -/
def slotAt (index : Memory α → UInt32) (next : Option α → Program (Memory α) ρ) :
    Program (Memory α) ρ :=
  .read index fun index =>
  .access (fun cb => index.toNat < cb.buffer.length) id
    fun cb => next (cb.buffer.getD index.toNat none)

/-- `cb->buffer[index] = value` -/
def storeAt (index : Memory α → UInt32) (value : Option α) (next : Program (Memory α) ρ) :
    Program (Memory α) ρ :=
  .read index fun index =>
  .access (fun cb => index.toNat < cb.buffer.length)
    (fun cb => { cb with buffer := cb.buffer.set index.toNat value }) fun _ => next

/-- Read `cb->allocated_size`, to divide by it. -/
def readDivisor (next : UInt32 → Program (Memory α) ρ) : Program (Memory α) ρ :=
  .access (fun cb => cb.allocatedSize ≠ 0) id fun cb => next cb.allocatedSize

/-- `cb->write_index == cb->read_index` -/
def indicesMeet (next : Bool → Program (Memory α) ρ) : Program (Memory α) ρ :=
  .read Memory.writeIndex fun writeIndex => .read Memory.readIndex fun readIndex =>
    next (writeIndex = readIndex)

/-- `cb->write_index++; cb->write_index %= cb->allocated_size;` -/
def advanceWriteIndex (next : Program (Memory α) ρ) : Program (Memory α) ρ :=
  .read Memory.writeIndex fun writeIndex =>
  .write (fun cb => { cb with writeIndex := writeIndex + 1 }) <|
  .read Memory.writeIndex fun writeIndex => readDivisor fun allocatedSize =>
  .write (fun cb => { cb with writeIndex := writeIndex % allocatedSize }) next

/-- `cb->read_index++; cb->read_index %= cb->allocated_size;` -/
def advanceReadIndex (next : Program (Memory α) ρ) : Program (Memory α) ρ :=
  .read Memory.readIndex fun readIndex =>
  .write (fun cb => { cb with readIndex := readIndex + 1 }) <|
  .read Memory.readIndex fun readIndex => readDivisor fun allocatedSize =>
  .write (fun cb => { cb with readIndex := readIndex % allocatedSize }) next

/-! ## The functions -/

/-- `clbuf_push` behind its test for a full buffer. -/
def storeItem (item : α) : Program (Memory α) (Option α) :=
  storeAt Memory.writeIndex (some item) <|
  advanceWriteIndex <|
  .unlock (.reply (some item))

/-- `clbuf_push` once it has the lock. -/
def pushLocked (item : α) : Program (Memory α) (Option α) :=
  indicesMeet fun meet =>
    if meet then
      slotAt Memory.writeIndex fun slot =>
        if slot.isSome then .unlock (.reply none) else storeItem item
    else storeItem item

def clbufPush : Option α → Program (Memory α) (Option α)
  | none => .reply none
  | some item => .lock (pushLocked item)

/-- `clbuf_pop` behind its test for an empty buffer. -/
def takeItem : Program (Memory α) (Option α) :=
  slotAt Memory.readIndex fun popped =>
  storeAt Memory.readIndex none <|
  advanceReadIndex <|
  .unlock (.reply popped)

/-- `clbuf_pop` once it has the lock. -/
def popLocked : Program (Memory α) (Option α) :=
  indicesMeet fun meet =>
    if meet then
      slotAt Memory.readIndex fun slot =>
        if slot.isNone then .unlock (.reply none) else takeItem
    else takeItem

def clbufPop : Program (Memory α) (Option α) := .lock popLocked

/-- The two branches of `clbuf_count_used` for different indices. -/
def countBetween : Program (Memory α) UInt32 :=
  .read Memory.writeIndex fun writeIndex => .read Memory.readIndex fun readIndex =>
    if writeIndex ≥ readIndex then
      .read Memory.writeIndex fun writeIndex => .read Memory.readIndex fun readIndex =>
      .unlock (.reply (writeIndex - readIndex))
    else
      .read Memory.writeIndex fun writeIndex => .read Memory.allocatedSize fun allocatedSize =>
      .read Memory.readIndex fun readIndex =>
      .unlock (.reply (writeIndex + allocatedSize - readIndex))

/-- `clbuf_count_used` behind its test for an empty buffer. -/
def countFull : Program (Memory α) UInt32 :=
  indicesMeet fun meet =>
    if meet then
      slotAt Memory.readIndex fun slot =>
        if slot.isSome then
          .read Memory.allocatedSize fun allocatedSize => .unlock (.reply allocatedSize)
        else countBetween
    else countBetween

/-- `clbuf_count_used` once it has the lock. -/
def countUsedLocked : Program (Memory α) UInt32 :=
  indicesMeet fun meet =>
    if meet then
      slotAt Memory.readIndex fun slot =>
        if slot.isNone then .unlock (.reply 0) else countFull
    else countFull

def clbufCountUsed : Program (Memory α) UInt32 := .lock countUsedLocked

/-- `clbuf_count_free` once it has the lock, which it takes again for
`clbuf_count_used`. -/
def countFreeLocked : Program (Memory α) UInt32 :=
  .read Memory.allocatedSize fun allocatedSize =>
  clbufCountUsed.bind fun used =>
  .unlock (.reply (allocatedSize - used))

def clbufCountFree : Program (Memory α) UInt32 := .lock countFreeLocked

def clbufCall : Call α → Program (Memory α) (Reply α)
  | .push ptr => (clbufPush ptr).bind fun result => .reply (.item result)
  | .pop => clbufPop.bind fun popped => .reply (.item popped)
  | .countUsed => clbufCountUsed.bind fun count => .reply (.count count.toNat)
  | .countFree => clbufCountFree.bind fun count => .reply (.count count.toNat)

/-! ## What a call does alone -/

/-- A buffer as it lies in the memory. -/
def Memory.of (cb : Clbuf α) : Memory α where
  allocatedSize := cb.allocatedSize
  readIndex := cb.readIndex
  writeIndex := cb.writeIndex
  buffer := cb.buffer

section Functions

variable {depth : Nat} (cb : Clbuf α)

theorem divisor_ne_zero : cb.allocatedSize ≠ 0 := by
  intro hzero
  have hpos := cb.allocatedSize_pos
  rw [hzero] at hpos
  exact Nat.lt_irrefl 0 hpos

theorem readIndex_inside : cb.readIndex.toNat < cb.buffer.length :=
  cb.buffer_length.symm ▸ cb.readIndex_lt

theorem writeIndex_inside : cb.writeIndex.toNat < cb.buffer.length :=
  cb.buffer_length.symm ▸ cb.writeIndex_lt

theorem alone_indicesMeet (next : Bool → Program (Memory α) ρ) :
    (indicesMeet next).alone (depth + 1) (Memory.of cb) =
      (next (cb.writeIndex = cb.readIndex)).alone (depth + 1) (Memory.of cb) := rfl

theorem alone_readSlot (next : Option α → Program (Memory α) ρ) :
    (slotAt Memory.readIndex next).alone (depth + 1) (Memory.of cb) =
      (next cb.readSlot).alone (depth + 1) (Memory.of cb) := by
  have hslot : cb.buffer.getD cb.readIndex.toNat none = cb.readSlot :=
    List.getD_eq_getElem _ _ (readIndex_inside cb)
  rw [← hslot]
  exact if_pos (decide_eq_true (readIndex_inside cb))

theorem alone_writeSlot (next : Option α → Program (Memory α) ρ) :
    (slotAt Memory.writeIndex next).alone (depth + 1) (Memory.of cb) =
      (next cb.writeSlot).alone (depth + 1) (Memory.of cb) := by
  have hslot : cb.buffer.getD cb.writeIndex.toNat none = cb.writeSlot :=
    List.getD_eq_getElem _ _ (writeIndex_inside cb)
  rw [← hslot]
  exact if_pos (decide_eq_true (writeIndex_inside cb))

theorem alone_storeAt {index : Memory α → UInt32} {memory : Memory α}
    (hindex : (index memory).toNat < memory.buffer.length) (value : Option α)
    (next : Program (Memory α) ρ) :
    (storeAt index value next).alone (depth + 1) memory =
      next.alone (depth + 1)
        { memory with buffer := memory.buffer.set (index memory).toNat value } :=
  if_pos (decide_eq_true hindex)

theorem alone_advanceWriteIndex {memory : Memory α} (hsize : memory.allocatedSize ≠ 0)
    (next : Program (Memory α) ρ) :
    (advanceWriteIndex next).alone (depth + 1) memory =
      next.alone (depth + 1)
        { memory with writeIndex := (memory.writeIndex + 1) % memory.allocatedSize } :=
  if_pos (decide_eq_true hsize)

theorem alone_advanceReadIndex {memory : Memory α} (hsize : memory.allocatedSize ≠ 0)
    (next : Program (Memory α) ρ) :
    (advanceReadIndex next).alone (depth + 1) memory =
      next.alone (depth + 1)
        { memory with readIndex := (memory.readIndex + 1) % memory.allocatedSize } :=
  if_pos (decide_eq_true hsize)

theorem alone_storeItem (item : α) :
    (storeItem item).alone (depth + 1) (Memory.of cb) =
      some (depth,
        { Memory.of cb with
          buffer := cb.buffer.set cb.writeIndex.toNat (some item)
          writeIndex := cb.advance cb.writeIndex },
        some item) := by
  rw [storeItem, alone_storeAt (writeIndex_inside cb),
    alone_advanceWriteIndex (divisor_ne_zero cb), Program.alone_unlock, Program.alone_reply]
  rfl

theorem alone_pushLocked (item : α) :
    (pushLocked item).alone (depth + 1) (Memory.of cb) =
      some (depth, Memory.of (Queue.clbufPush cb (some item)).2,
        (Queue.clbufPush cb (some item)).1) := by
  rw [pushLocked, alone_indicesMeet, Queue.clbufPush]
  by_cases hmeet : cb.writeIndex = cb.readIndex
  · rw [if_pos (decide_eq_true hmeet), alone_writeSlot]
    by_cases hfull : cb.writeSlot.isSome = true
    · rw [if_pos hfull, if_pos ⟨hmeet, hfull⟩, Program.alone_unlock, Program.alone_reply]
    · rw [if_neg hfull, if_neg fun hboth => hfull hboth.2, alone_storeItem]
      rfl
  · rw [if_neg (by rw [decide_eq_true_eq]; exact hmeet), if_neg fun hboth => hmeet hboth.1,
      alone_storeItem]
    rfl

theorem alone_takeItem :
    takeItem.alone (depth + 1) (Memory.of cb) =
      some (depth,
        { Memory.of cb with
          buffer := cb.buffer.set cb.readIndex.toNat none
          readIndex := cb.advance cb.readIndex },
        cb.readSlot) := by
  rw [takeItem, alone_readSlot, alone_storeAt (readIndex_inside cb),
    alone_advanceReadIndex (divisor_ne_zero cb), Program.alone_unlock, Program.alone_reply]
  rfl

theorem alone_popLocked :
    popLocked.alone (depth + 1) (Memory.of cb) =
      some (depth, Memory.of (Queue.clbufPop cb).2, (Queue.clbufPop cb).1) := by
  rw [popLocked, alone_indicesMeet, Queue.clbufPop]
  by_cases hmeet : cb.writeIndex = cb.readIndex
  · rw [if_pos (decide_eq_true hmeet), alone_readSlot]
    by_cases hempty : cb.readSlot.isNone = true
    · rw [if_pos hempty, if_pos ⟨hmeet, hempty⟩, Program.alone_unlock, Program.alone_reply]
    · rw [if_neg hempty, if_neg fun hboth => hempty hboth.2, alone_takeItem]
      rfl
  · rw [if_neg (by rw [decide_eq_true_eq]; exact hmeet), if_neg fun hboth => hmeet hboth.1,
      alone_takeItem]
    rfl

theorem alone_countBetween :
    countBetween.alone (depth + 1) (Memory.of cb) =
      some (depth, Memory.of cb,
        if cb.writeIndex ≥ cb.readIndex then cb.writeIndex - cb.readIndex
        else cb.writeIndex + cb.allocatedSize - cb.readIndex) := by
  rw [countBetween, Program.alone_read, Program.alone_read]
  change Program.alone _ (if cb.writeIndex ≥ cb.readIndex then _ else _) _ = _
  by_cases horder : cb.writeIndex ≥ cb.readIndex
  · rw [if_pos horder, if_pos horder, Program.alone_read, Program.alone_read,
      Program.alone_unlock, Program.alone_reply]
    rfl
  · rw [if_neg horder, if_neg horder, Program.alone_read, Program.alone_read, Program.alone_read,
      Program.alone_unlock, Program.alone_reply]
    rfl

theorem alone_countFull :
    countFull.alone (depth + 1) (Memory.of cb) =
      some (depth, Memory.of cb,
        if cb.writeIndex = cb.readIndex ∧ cb.readSlot.isSome then cb.allocatedSize
        else if cb.writeIndex ≥ cb.readIndex then cb.writeIndex - cb.readIndex
        else cb.writeIndex + cb.allocatedSize - cb.readIndex) := by
  rw [countFull, alone_indicesMeet]
  by_cases hmeet : cb.writeIndex = cb.readIndex
  · rw [if_pos (decide_eq_true hmeet), alone_readSlot]
    by_cases hfull : cb.readSlot.isSome = true
    · rw [if_pos hfull, if_pos ⟨hmeet, hfull⟩, Program.alone_read, Program.alone_unlock,
        Program.alone_reply]
      rfl
    · rw [if_neg hfull, if_neg fun hboth => hfull hboth.2, alone_countBetween]
  · rw [if_neg (by rw [decide_eq_true_eq]; exact hmeet), if_neg fun hboth => hmeet hboth.1,
      alone_countBetween]

theorem alone_countUsedLocked :
    countUsedLocked.alone (depth + 1) (Memory.of cb) =
      some (depth, Memory.of cb, Queue.clbufCountUsed cb) := by
  rw [countUsedLocked, alone_indicesMeet, Queue.clbufCountUsed]
  by_cases hmeet : cb.writeIndex = cb.readIndex
  · rw [if_pos (decide_eq_true hmeet), alone_readSlot]
    by_cases hempty : cb.readSlot.isNone = true
    · rw [if_pos hempty, if_pos ⟨hmeet, hempty⟩, Program.alone_unlock, Program.alone_reply]
    · rw [if_neg hempty, if_neg fun hboth => hempty hboth.2, alone_countFull]
  · rw [if_neg (by rw [decide_eq_true_eq]; exact hmeet), if_neg fun hboth => hmeet hboth.1,
      alone_countFull]

theorem alone_countFreeLocked :
    countFreeLocked.alone (depth + 1) (Memory.of cb) =
      some (depth, Memory.of cb, Queue.clbufCountFree cb) := by
  have hused : (clbufCountUsed (α := α)).alone (depth + 1) (Memory.of cb) =
      some (depth + 1, Memory.of cb, Queue.clbufCountUsed cb) :=
    alone_countUsedLocked cb
  rw [countFreeLocked, Program.alone_read, Program.alone_bind hused, Program.alone_unlock,
    Program.alone_reply]
  rfl

end Functions

/-! ## The functions among other threads -/

/-- The memory holds a buffer that stores the items of the list. -/
def Represents {capacity : Nat} (memory : Memory α) (fifo : Fifo α capacity) : Prop :=
  ∃ cb : Clbuf α, memory = Memory.of cb ∧ cb.Refines fifo

theorem create_represents (α : Type) (size : UInt32) (hsize : 0 < size.toNat) :
    Represents (clbufCreate α size) (Fifo.empty α size.toNat) :=
  ⟨Queue.clbufCreate α size hsize, rfl, Clbuf.create_refines α size hsize⟩

/-- A call that does alone what the buffer does serves the list of its items. -/
theorem serves_of_alone {capacity : Nat} {call : Call α} {body : Program (Memory α) (Reply α)}
    (halone : ∀ cb : Clbuf α, body.alone 1 (Memory.of cb) =
      some (0, Memory.of (cb.perform call).2, (cb.perform call).1)) :
    Locking.Serves (@Fifo.perform α capacity) Represents call
      (.lock body) := by
  refine .locked body ?_
  rintro memory fifo ⟨cb, rfl, refines⟩
  have simulation := Clbuf.perform_simulates α capacity
  refine ⟨Memory.of (cb.perform call).2, ?_, (cb.perform call).2, rfl, simulation.next call refines⟩
  rw [halone, simulation.reply call refines]

theorem clbufCall_serves {capacity : Nat} (call : Call α) :
    Locking.Serves (@Fifo.perform α capacity) Represents call
      (clbufCall call) := by
  cases call with
  | push ptr =>
      cases ptr with
      | none => exact .immediate (Reply.item none) fun _ => rfl
      | some item =>
          refine serves_of_alone fun cb => ?_
          rw [Program.alone_bind (alone_pushLocked cb item), Program.alone_reply]
          rfl
  | pop =>
      refine serves_of_alone fun cb => ?_
      rw [Program.alone_bind (alone_popLocked cb), Program.alone_reply]
      rfl
  | countUsed =>
      refine serves_of_alone fun cb => ?_
      rw [Program.alone_bind (alone_countUsedLocked cb), Program.alone_reply]
      rfl
  | countFree =>
      refine serves_of_alone fun cb => ?_
      rw [Program.alone_bind (alone_countFreeLocked cb), Program.alone_reply]
      rfl

/-- However the threads get in between each other's accesses, no access of the
buffer is out of bounds, the calls and replies are those of a bounded list that
serves one call at a time, and every call can end by steps of its own thread
and of the owner of the lock. -/
theorem clbuf_linearizable {τ : Type} [DecidableEq τ] (size : UInt32) (hsize : 0 < size.toNat)
    {events : List (AtomicObject.Event τ (Call α) (Reply α))}
    {final : Locking.State (Memory α) τ (Reply α)}
    (htrace : (Locking.system clbufCall).Trace (Locking.start (clbufCreate α size)) events final) :
    final.faulted = false ∧
      (∃ list, (AtomicObject.system Fifo.perform).Trace
        (AtomicObject.start (Fifo.empty α size.toNat)) events list) ∧
      ∀ thread, ∃ ended, Transition.Reaches (Locking.step clbufCall) (final.Helpful thread)
        final ended ∧ ended.frames thread = none := by
  have hserves : ∀ call : Call α, Locking.Serves (@Fifo.perform α size.toNat) Represents
    call (clbufCall call) := clbufCall_serves
  obtain ⟨list, htrace', hrelated⟩ := (Locking.simulates hserves).trace htrace
    (Locking.start_related (create_represents α size hsize))
  exact ⟨hrelated.sound, ⟨list, htrace'⟩, hrelated.completes hserves⟩

/-- A pop that waits while a push of another thread has the lock. -/
theorem clbuf_linearizable_waiting :
    ∃ final : Locking.State (Memory Nat) (Fin 2) (Reply Nat),
      (Locking.system clbufCall).Trace (Locking.start (clbufCreate Nat 1))
        [.invoked 0 (.push (some 7)), .invoked 1 .pop] final ∧
      final.owner = some 0 ∧
      ∃ ended, Transition.Reaches (Locking.step clbufCall) (final.Helpful 1) final ended ∧
        ended.frames 1 = none := by
  have htrace : (Locking.system clbufCall).Trace
      (Locking.start (clbufCreate Nat 1) : Locking.State (Memory Nat) (Fin 2) (Reply Nat))
      [.invoked 0 (.push (some 7)), .invoked 1 .pop] _ :=
    .cons (Locking.Label.invoke 0 (Call.push (some 7))) rfl <|
      .cons (Locking.Label.invoke 1 Call.pop) rfl <| .cons (Locking.Label.advance 0) rfl (.nil _)
  exact ⟨_, htrace, rfl, (clbuf_linearizable 1 (by decide) htrace).2.2 1⟩

end ClusteredPoller.Queue.Locked
