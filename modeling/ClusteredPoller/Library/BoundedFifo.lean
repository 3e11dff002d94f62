import ClusteredPoller.Library.Machine

/-!
# Bounded first-in first-out lists

What a bounded queue is for, stated on the list of its items: an item is
accepted while there is room and is refused afterwards, and items leave in the
order in which they were accepted.
-/

namespace ClusteredPoller.Library.BoundedFifo

variable {α : Type}

/-- A call on a queue.  `none` stands for the absent item of a push. -/
inductive Call (α : Type) where
  | push (item : Option α)
  | pop
  | countUsed
  | countFree
  deriving DecidableEq, Repr

inductive Reply (α : Type) where
  | item (item : Option α)
  | count (number : Nat)
  deriving DecidableEq, Repr

/-- At most `capacity` items, oldest first. -/
structure Fifo (α : Type) (capacity : Nat) where
  items : List α
  bounded : items.length ≤ capacity

namespace Fifo

variable {capacity : Nat}

def empty (α : Type) (capacity : Nat) : Fifo α capacity := ⟨[], Nat.zero_le _⟩

def push (fifo : Fifo α capacity) (item : Option α) : Option α × Fifo α capacity :=
  match item with
  | none => (none, fifo)
  | some value =>
      if hroom : fifo.items.length < capacity then
        (some value, ⟨fifo.items ++ [value], by rw [List.length_append]; exact hroom⟩)
      else (none, fifo)

def pop : Fifo α capacity → Option α × Fifo α capacity
  | ⟨[], bounded⟩ => (none, ⟨[], bounded⟩)
  | ⟨value :: rest, bounded⟩ => (some value, ⟨rest, Nat.le_of_succ_le bounded⟩)

def perform (fifo : Fifo α capacity) : Call α → Reply α × Fifo α capacity
  | .push item => (.item (fifo.push item).1, (fifo.push item).2)
  | .pop => (.item fifo.pop.1, fifo.pop.2)
  | .countUsed => (.count fifo.items.length, fifo)
  | .countFree => (.count (capacity - fifo.items.length), fifo)

end Fifo

end ClusteredPoller.Library.BoundedFifo
