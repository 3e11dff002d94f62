import Mathlib.Data.List.Basic
import Mathlib.Data.UInt

/-!
# Arrays that grow

An array in memory with two unsigned counters, the number of its items and the
number of cells of its allocation.  Where an item finds the array full, the
allocation is replaced by a larger one first, and what fits it is copied.
-/

namespace ClusteredPoller.Library

/-- A cell in which nothing has been stored is `none`. -/
structure GrowingArray (Item : Type) where
  cells : List (Option Item)
  count : UInt32
  allocated : UInt32
  deriving DecidableEq

namespace GrowingArray

variable {Item ε : Type}

def create (space : UInt32) : GrowingArray Item where
  cells := List.replicate space.toNat none
  count := 0
  allocated := space

/-- An allocation of another size with the same cells, as far as it reaches. -/
def reallocate (cells : List (Option Item)) (size : Nat) : List (Option Item) :=
  cells.take size ++ List.replicate (size - cells.length) none

/-- Make room for an item. -/
def reserve (grow : UInt32 → UInt32) (array : GrowingArray Item) : GrowingArray Item :=
  if array.count = array.allocated then
    { array with
      cells := reallocate array.cells (grow array.allocated).toNat
      allocated := grow array.allocated }
  else array

/-- Store an item behind the others; outside of the allocation this fails. -/
def append (outside : ε) (array : GrowingArray Item) (item : Item) :
    Except ε (GrowingArray Item) :=
  if array.count.toNat < array.cells.length then
    .ok
      { array with
        cells := array.cells.set array.count.toNat (some item)
        count := array.count + 1 }
  else .error outside

def push (grow : UInt32 → UInt32) (outside : ε) (array : GrowingArray Item) (item : Item) :
    Except ε (GrowingArray Item) :=
  (array.reserve grow).append outside item

/-- The items are in the first cells of an allocation of the size noted. -/
structure Holds (array : GrowingArray Item) (items : List Item) : Prop where
  allocation : array.cells.length = array.allocated.toNat
  count_eq : array.count.toNat = items.length
  stored : ∃ unused, array.cells = items.map some ++ unused

/-- From some size on, an allocation grows in fact. -/
def Grows (grow : UInt32 → UInt32) (least : UInt32) (limit : Nat) : Prop :=
  ∀ space, least ≤ space → space.toNat < limit → space < grow space

theorem create_holds (space : UInt32) : (create space : GrowingArray Item).Holds [] where
  allocation := List.length_replicate
  count_eq := rfl
  stored := ⟨List.replicate space.toNat none, rfl⟩

theorem length_reallocate (cells : List (Option Item)) (size : Nat) :
    (reallocate cells size).length = size := by
  rw [reallocate, List.length_append, List.length_take, List.length_replicate]
  omega

section Push

variable {grow : UInt32 → UInt32} {outside : ε} {array : GrowingArray Item} {items : List Item}

namespace Holds

theorem length_le (holds : array.Holds items) : items.length ≤ array.allocated.toNat := by
  obtain ⟨unused, hcells⟩ := holds.stored
  rw [← holds.allocation, hcells, List.length_append, List.length_map]
  exact Nat.le_add_right _ _

theorem getElem? (holds : array.Holds items) {index : Nat} (hindex : index < items.length) :
    array.cells[index]? = some items[index]? := by
  obtain ⟨unused, hcells⟩ := holds.stored
  rw [hcells, List.getElem?_append_left (by simpa using hindex)]
  simp [hindex]

/-- A larger allocation takes over all items. -/
theorem reallocate (holds : array.Holds items) {space : UInt32}
    (hlarger : array.allocated < space) :
    Holds
      { array with cells := GrowingArray.reallocate array.cells space.toNat, allocated := space }
      items where
  allocation := length_reallocate _ _
  count_eq := holds.count_eq
  stored := by
    obtain ⟨unused, hcells⟩ := holds.stored
    have hfits : array.cells.length ≤ space.toNat := by
      rw [holds.allocation]
      exact Nat.le_of_lt (UInt32.lt_iff_toNat_lt.mp hlarger)
    refine ⟨unused ++ List.replicate (space.toNat - array.cells.length) none, ?_⟩
    change GrowingArray.reallocate _ _ = _
    rw [GrowingArray.reallocate, List.take_of_length_le hfits, hcells, List.append_assoc]

/-- With growth, there is always room. -/
theorem reserve (holds : array.Holds items)
    (hgrow : array.count = array.allocated → array.allocated < grow array.allocated) :
    (array.reserve grow).Holds items ∧ items.length < (array.reserve grow).allocated.toNat := by
  unfold GrowingArray.reserve
  by_cases hfull : array.count = array.allocated
  · rw [if_pos hfull]
    have hlarger := hgrow hfull
    refine ⟨holds.reallocate hlarger, ?_⟩
    exact Nat.lt_of_le_of_lt holds.length_le (UInt32.lt_iff_toNat_lt.mp hlarger)
  · rw [if_neg hfull]
    refine ⟨holds, Nat.lt_of_le_of_ne holds.length_le fun hequal => hfull ?_⟩
    rw [← UInt32.toNat_inj, holds.count_eq, hequal]

/-- In a free cell an item is stored, and nothing else changes. -/
theorem append (holds : array.Holds items) (hroom : items.length < array.allocated.toNat)
    (item : Item) :
    ∃ after, array.append outside item = .ok after ∧ after.Holds (items ++ [item]) ∧
      after.allocated = array.allocated := by
  have hinside : array.count.toNat < array.cells.length := by
    rw [holds.count_eq, holds.allocation]
    exact hroom
  refine ⟨_, if_pos hinside, ⟨?_, ?_, ?_⟩, rfl⟩
  · change (array.cells.set _ _).length = _
    rw [List.length_set, holds.allocation]
  · have hword := array.allocated.toNat_lt
    change (array.count + 1).toNat = _
    rw [UInt32.toNat_add, holds.count_eq, List.length_append, List.length_singleton]
    exact Nat.mod_eq_of_lt (by change items.length + 1 < 2 ^ 32; omega)
  · obtain ⟨unused, hcells⟩ := holds.stored
    rw [hcells, List.length_append, List.length_map, holds.count_eq] at hinside
    obtain ⟨first, unused, rfl⟩ := List.exists_cons_of_length_pos
      (Nat.pos_of_lt_add_right hinside)
    refine ⟨unused, ?_⟩
    change array.cells.set _ _ = _
    rw [hcells, holds.count_eq, List.set_append_right _ _ (by simp)]
    simp

end Holds

/-- What a push does: the cell that it writes is inside the allocation, the
earlier cells are kept, and the allocation grows where the array was full. -/
structure Pushed (grow : UInt32 → UInt32) (before after : GrowingArray Item) (items : List Item)
    (item : Item) : Prop where
  heldBefore : before.Holds items
  heldAfter : after.Holds (items ++ [item])
  inBounds : before.count.toNat < after.allocated.toNat
  written : after.cells[before.count.toNat]? = some (some item)
  kept : ∀ index < before.count.toNat, after.cells[index]? = before.cells[index]?
  capacity : after.allocated =
    if before.count = before.allocated then grow before.allocated else before.allocated

theorem Holds.push (holds : array.Holds items)
    (hgrow : array.count = array.allocated → array.allocated < grow array.allocated)
    (item : Item) :
    ∃ after, array.push grow outside item = .ok after ∧ Pushed grow array after items item := by
  obtain ⟨hreserved, hroom⟩ := holds.reserve hgrow
  obtain ⟨after, hafter, hholds, hallocated⟩ := hreserved.append hroom item
  refine ⟨after, hafter, holds, hholds, ?_, ?_, ?_, ?_⟩
  · rw [holds.count_eq, hallocated]
    exact hroom
  · rw [holds.count_eq, hholds.getElem? (by simp)]
    simp
  · intro index hindex
    rw [holds.count_eq] at hindex
    rw [holds.getElem? hindex, hholds.getElem? (by simp; omega),
      List.getElem?_append_left hindex]
  · rw [hallocated, GrowingArray.reserve]
    split <;> rfl

/-- From a size on that grows, an array takes items up to the limit. -/
theorem Holds.push_grows {least : UInt32} {limit : Nat} (hgrows : Grows grow least limit)
    (holds : array.Holds items) (hleast : least ≤ array.allocated) (hlimit : items.length < limit)
    (item : Item) :
    ∃ after, array.push grow outside item = .ok after ∧ Pushed grow array after items item ∧
      least ≤ after.allocated := by
  have hgrow : array.count = array.allocated → array.allocated < grow array.allocated := by
    intro hfull
    refine hgrows _ hleast ?_
    rw [← hfull, holds.count_eq]
    exact hlimit
  obtain ⟨after, hafter, pushed⟩ := @Holds.push _ _ _ outside _ _ holds hgrow item
  refine ⟨after, hafter, pushed, ?_⟩
  rw [pushed.capacity]
  split
  · next hfull => exact UInt32.le_trans hleast (UInt32.le_of_lt (hgrow hfull))
  · exact hleast

end Push

end GrowingArray

end ClusteredPoller.Library
