import ClusteredPoller.Library.BoundedFifo

/-!
# The circular buffer of `clbuf.c`

`unsigned` is 32 bits wide, and `NULL` is `none`.  Every call holds the
buffer's recursive lock from its first read to its last write, so a call is
one atomic step and the lock itself leaves no trace in the state.  A buffer
value carries the bounds that make its two index reads valid.
-/

namespace ClusteredPoller.Queue

open Library.BoundedFifo (Call Reply)

variable {α : Type}

structure Clbuf (α : Type) where
  allocatedSize : UInt32
  readIndex : UInt32
  writeIndex : UInt32
  buffer : List (Option α)
  buffer_length : buffer.length = allocatedSize.toNat
  readIndex_lt : readIndex.toNat < allocatedSize.toNat
  writeIndex_lt : writeIndex.toNat < allocatedSize.toNat

namespace Clbuf

/-- `cb->buffer[index]`, for an index inside the allocation. -/
def slot (cb : Clbuf α) (index : UInt32) (hindex : index.toNat < cb.allocatedSize.toNat) :
    Option α :=
  cb.buffer.get ⟨index.toNat, cb.buffer_length.symm ▸ hindex⟩

/-- `cb->buffer[cb->read_index]` and `cb->buffer[cb->write_index]`. -/
def readSlot (cb : Clbuf α) : Option α := cb.slot cb.readIndex cb.readIndex_lt

def writeSlot (cb : Clbuf α) : Option α := cb.slot cb.writeIndex cb.writeIndex_lt

/-- `index++; index %= allocated_size`, in 32-bit unsigned arithmetic. -/
def advance (cb : Clbuf α) (index : UInt32) : UInt32 := (index + 1) % cb.allocatedSize

theorem allocatedSize_pos (cb : Clbuf α) : 0 < cb.allocatedSize.toNat :=
  Nat.zero_lt_of_lt cb.readIndex_lt

theorem advance_lt (cb : Clbuf α) (index : UInt32) :
    (cb.advance index).toNat < cb.allocatedSize.toNat := by
  rw [advance, UInt32.toNat_mod]
  exact Nat.mod_lt _ cb.allocatedSize_pos

end Clbuf

open Clbuf

def clbufCreate (α : Type) (size : UInt32) (hsize : 0 < size.toNat) : Clbuf α where
  allocatedSize := size
  readIndex := 0
  writeIndex := 0
  buffer := List.replicate size.toNat none
  buffer_length := List.length_replicate
  readIndex_lt := hsize
  writeIndex_lt := hsize

def clbufPush (cb : Clbuf α) : Option α → Option α × Clbuf α
  | none => (none, cb)
  | some item =>
      if cb.writeIndex = cb.readIndex ∧ cb.writeSlot.isSome then
        (none, cb)
      else
        (some item,
          { cb with
            buffer := cb.buffer.set cb.writeIndex.toNat (some item)
            buffer_length := by rw [List.length_set, cb.buffer_length]
            writeIndex := cb.advance cb.writeIndex
            writeIndex_lt := cb.advance_lt cb.writeIndex })

def clbufPop (cb : Clbuf α) : Option α × Clbuf α :=
  if cb.writeIndex = cb.readIndex ∧ cb.readSlot.isNone then
    (none, cb)
  else
    (cb.readSlot,
      { cb with
        buffer := cb.buffer.set cb.readIndex.toNat none
        buffer_length := by rw [List.length_set, cb.buffer_length]
        readIndex := cb.advance cb.readIndex
        readIndex_lt := cb.advance_lt cb.readIndex })

def clbufCountUsed (cb : Clbuf α) : UInt32 :=
  if cb.writeIndex = cb.readIndex ∧ cb.readSlot.isNone then
    0
  else if cb.writeIndex = cb.readIndex ∧ cb.readSlot.isSome then
    cb.allocatedSize
  else if cb.writeIndex ≥ cb.readIndex then
    cb.writeIndex - cb.readIndex
  else
    -- The sum may pass `2 ^ 32`; the subtraction takes it back below.
    cb.writeIndex + cb.allocatedSize - cb.readIndex

def clbufCountFree (cb : Clbuf α) : UInt32 := cb.allocatedSize - clbufCountUsed cb

/-- One call of any thread.  A count is answered by the number it stands for. -/
def Clbuf.perform (cb : Clbuf α) : Call α → Reply α × Clbuf α
  | .push ptr => (.item (clbufPush cb ptr).1, (clbufPush cb ptr).2)
  | .pop => (.item (clbufPop cb).1, (clbufPop cb).2)
  | .countUsed => (.count (clbufCountUsed cb).toNat, cb)
  | .countFree => (.count (clbufCountFree cb).toNat, cb)

end ClusteredPoller.Queue
