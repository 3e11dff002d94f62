import ClusteredPoller.Library.CircularWindow
import ClusteredPoller.Queue.Clbuf
import Mathlib.Data.List.Basic
import Mathlib.Data.List.GetD

/-!
# The circular buffer is a bounded queue

The stored items are the window that starts at `read_index`, `write_index` is
the place just after it, and every slot outside the window is `NULL`.  This
holds of a fresh buffer and is kept by every call, so a buffer and the bounded
first-in first-out list of its items answer every sequence of calls alike.
-/

namespace ClusteredPoller.Queue

open Library
open Library.BoundedFifo (Call Reply Fifo)
open Library.CircularWindow (Window ends_meet_iff)

variable {α : Type}

namespace Clbuf

/-- The buffer's slots by place; there is nothing past the allocation. -/
def slots (cb : Clbuf α) (place : Nat) : Option α := cb.buffer.getD place none

/-- `items`, oldest first, are what the buffer stores. -/
structure Stores (cb : Clbuf α) (items : List α) : Prop where
  window : Window cb.slots cb.allocatedSize.toNat cb.readIndex.toNat items
  writeIndex_eq : cb.writeIndex.toNat =
    (cb.readIndex.toNat + items.length) % cb.allocatedSize.toNat

theorem slot_eq_slots (cb : Clbuf α) (index : UInt32)
    (hindex : index.toNat < cb.allocatedSize.toNat) :
    cb.slot index hindex = cb.slots index.toNat := by
  have hlength : index.toNat < cb.buffer.length := cb.buffer_length.symm ▸ hindex
  simp [slot, slots, hlength]

theorem advance_toNat (cb : Clbuf α) {index : UInt32}
    (hindex : index.toNat < cb.allocatedSize.toNat) :
    (cb.advance index).toNat = (index.toNat + 1) % cb.allocatedSize.toNat := by
  have hsize := cb.allocatedSize.toNat_lt
  have hsum : (index + 1).toNat = index.toNat + 1 := by
    rw [UInt32.toNat_add]
    exact Nat.mod_eq_of_lt (by simp; omega)
  rw [advance, UInt32.toNat_mod, hsum]

/-- Overwriting one slot of the allocation changes that slot only. -/
theorem getD_set (buffer : List (Option α)) {place : Nat} (hplace : place < buffer.length)
    (value : Option α) :
    (fun other => (buffer.set place value).getD other none) =
      Function.update (fun other => buffer.getD other none) place value := by
  funext other
  by_cases heq : other = place
  · subst heq
    simp [hplace]
  · rw [Function.update_of_ne heq]
    simp [List.getElem?_set_ne (Ne.symm heq)]

namespace Stores

variable {cb : Clbuf α} {items : List α}

theorem fits (stores : cb.Stores items) : items.length ≤ cb.allocatedSize.toNat :=
  stores.window.fits

theorem readSlot_eq (stores : cb.Stores items) : cb.readSlot = items.head? := by
  rw [readSlot, slot_eq_slots]
  exact stores.window.front cb.readIndex_lt

/-- The indices agree exactly when the buffer is empty or full. -/
theorem indices_meet_iff (stores : cb.Stores items) :
    cb.writeIndex = cb.readIndex ↔
      items.length = 0 ∨ items.length = cb.allocatedSize.toNat := by
  rw [← UInt32.toNat_inj, stores.writeIndex_eq]
  exact ends_meet_iff cb.readIndex_lt stores.fits

/-- Where the indices agree, `NULL` there means that nothing is stored. -/
theorem empty_iff (stores : cb.Stores items) :
    (cb.writeIndex = cb.readIndex ∧ cb.readSlot.isNone) ↔ items = [] := by
  rw [stores.indices_meet_iff, stores.readSlot_eq]
  cases items <;> simp

theorem full_iff (stores : cb.Stores items) :
    (cb.writeIndex = cb.readIndex ∧ cb.readSlot.isSome) ↔
      items.length = cb.allocatedSize.toNat := by
  have hpos := cb.allocatedSize_pos
  rw [stores.indices_meet_iff, stores.readSlot_eq]
  cases items with
  | nil => simp; omega
  | cons item rest => simp

/-- The push tests the slot at the write index, which is then the same slot. -/
theorem writeSlot_full_iff (stores : cb.Stores items) :
    (cb.writeIndex = cb.readIndex ∧ cb.writeSlot.isSome) ↔
      items.length = cb.allocatedSize.toNat := by
  rw [← stores.full_iff]
  refine and_congr_right fun hmeet => ?_
  rw [writeSlot, readSlot, slot_eq_slots, slot_eq_slots, hmeet]

end Stores

theorem stores_create (size : UInt32) (hsize : 0 < size.toNat) :
    (clbufCreate α size hsize).Stores [] := by
  have hslots : (clbufCreate α size hsize).slots = fun _ => none := by
    funext place
    rw [slots, clbufCreate]
    rcases Nat.lt_or_ge place size.toNat with hlt | hge
    · simp [hlt]
    · simp [hge]
  constructor
  · rw [hslots]
    exact Window.empty _ _
  · change 0 = (0 + 0) % size.toNat
    rw [Nat.add_zero, Nat.zero_mod]

/-! ## One call -/

section Calls

variable {cb : Clbuf α} {items : List α}

theorem push_null (cb : Clbuf α) : clbufPush cb none = (none, cb) := rfl

theorem push_full (stores : cb.Stores items)
    (hfull : items.length = cb.allocatedSize.toNat) (item : α) :
    clbufPush cb (some item) = (none, cb) := by
  rw [clbufPush, if_pos (stores.writeSlot_full_iff.mpr hfull)]

theorem push_room (stores : cb.Stores items)
    (hroom : items.length < cb.allocatedSize.toNat) (item : α) :
    (clbufPush cb (some item)).1 = some item ∧
      (clbufPush cb (some item)).2.Stores (items ++ [item]) := by
  have hnotFull : ¬ (cb.writeIndex = cb.readIndex ∧ cb.writeSlot.isSome) := fun hfull =>
    Nat.ne_of_lt hroom (stores.writeSlot_full_iff.mp hfull)
  have hplace : cb.writeIndex.toNat < cb.buffer.length := by
    rw [cb.buffer_length]
    exact cb.writeIndex_lt
  rw [clbufPush, if_neg hnotFull]
  refine ⟨rfl, ?_, ?_⟩
  · have hwindow := stores.window.push hroom item
    rw [← stores.writeIndex_eq] at hwindow
    unfold slots
    rw [getD_set cb.buffer hplace]
    exact hwindow
  · change (cb.advance cb.writeIndex).toNat =
      (cb.readIndex.toNat + (items ++ [item]).length) % cb.allocatedSize.toNat
    rw [cb.advance_toNat cb.writeIndex_lt, stores.writeIndex_eq, Nat.mod_add_mod,
      List.length_append, List.length_singleton, Nat.add_assoc]

theorem pop_empty (stores : cb.Stores []) : clbufPop cb = (none, cb) := by
  rw [clbufPop, if_pos (stores.empty_iff.mpr rfl)]

theorem pop_oldest {item : α} (stores : cb.Stores (item :: items)) :
    (clbufPop cb).1 = some item ∧ (clbufPop cb).2.Stores items := by
  have hnotEmpty : ¬ (cb.writeIndex = cb.readIndex ∧ cb.readSlot.isNone) := fun hempty =>
    List.cons_ne_nil item items (stores.empty_iff.mp hempty)
  have hplace : cb.readIndex.toNat < cb.buffer.length := by
    rw [cb.buffer_length]
    exact cb.readIndex_lt
  rw [clbufPop, if_neg hnotEmpty]
  refine ⟨stores.readSlot_eq, ?_, ?_⟩
  · have hwindow := stores.window.pop cb.readIndex_lt
    unfold slots
    rw [getD_set cb.buffer hplace]
    change Window _ _ (cb.advance cb.readIndex).toNat _
    rw [cb.advance_toNat cb.readIndex_lt]
    exact hwindow
  · change cb.writeIndex.toNat = ((cb.advance cb.readIndex).toNat + items.length) % _
    rw [cb.advance_toNat cb.readIndex_lt, stores.writeIndex_eq, Nat.mod_add_mod,
      List.length_cons, Nat.add_assoc, Nat.add_comm 1]

/-- A partly filled buffer's count is the distance between its indices, once
round the circle if the window wraps. -/
theorem Stores.distance_eq (stores : cb.Stores items)
    (hroom : items.length < cb.allocatedSize.toNat) :
    (cb.readIndex.toNat ≤ cb.writeIndex.toNat →
      cb.writeIndex.toNat = cb.readIndex.toNat + items.length) ∧
    (cb.writeIndex.toNat < cb.readIndex.toNat →
      cb.writeIndex.toNat + cb.allocatedSize.toNat = cb.readIndex.toNat + items.length) := by
  have hwrite := stores.writeIndex_eq
  have hread := cb.readIndex_lt
  rcases Nat.lt_or_ge (cb.readIndex.toNat + items.length) cb.allocatedSize.toNat with hin | hwrap
  · rw [Nat.mod_eq_of_lt hin] at hwrite
    omega
  · rw [Nat.mod_eq_sub_mod hwrap, Nat.mod_eq_of_lt (by omega)] at hwrite
    omega

theorem countUsed_eq (stores : cb.Stores items) :
    (clbufCountUsed cb).toNat = items.length := by
  unfold clbufCountUsed
  by_cases hempty : cb.writeIndex = cb.readIndex ∧ cb.readSlot.isNone
  · rw [if_pos hempty, stores.empty_iff.mp hempty]
    rfl
  · rw [if_neg hempty]
    by_cases hfull : cb.writeIndex = cb.readIndex ∧ cb.readSlot.isSome
    · rw [if_pos hfull, stores.full_iff.mp hfull]
    · rw [if_neg hfull]
      have hroom : items.length < cb.allocatedSize.toNat :=
        Nat.lt_of_le_of_ne stores.fits fun heq => hfull (stores.full_iff.mpr heq)
      obtain ⟨hahead, hbehind⟩ := stores.distance_eq hroom
      have hread := cb.readIndex.toNat_lt
      have hwrite := cb.writeIndex.toNat_lt
      have hsize := cb.allocatedSize.toNat_lt
      by_cases horder : cb.writeIndex ≥ cb.readIndex
      · have hle := UInt32.le_iff_toNat_le.mp horder
        rw [if_pos horder, UInt32.toNat_sub_of_le _ _ horder, hahead hle,
          Nat.add_sub_cancel_left]
      · have hlt := Nat.lt_of_not_le fun hle => horder (UInt32.le_iff_toNat_le.mpr hle)
        have hsum := hbehind hlt
        rw [if_neg horder, UInt32.toNat_sub, UInt32.toNat_add]
        omega

theorem countFree_eq (stores : cb.Stores items) :
    (clbufCountFree cb).toNat = cb.allocatedSize.toNat - items.length := by
  have hused := countUsed_eq stores
  have hle : clbufCountUsed cb ≤ cb.allocatedSize :=
    UInt32.le_iff_toNat_le.mpr (hused ▸ stores.fits)
  rw [clbufCountFree, UInt32.toNat_sub_of_le _ _ hle, hused]

end Calls

/-! ## Reading the stored items -/

/-- The items, oldest first, as a reader finds them behind `read_index`. -/
def stored (cb : Clbuf α) : List α :=
  (List.range (clbufCountUsed cb).toNat).filterMap fun offset =>
    cb.slots ((cb.readIndex.toNat + offset) % cb.allocatedSize.toNat)

theorem filterMap_getElem?_range (items : List α) :
    (List.range items.length).filterMap (fun place => items[place]?) = items := by
  induction items with
  | nil => rfl
  | cons item items ih =>
      rw [List.length_cons, List.range_succ_eq_map, List.filterMap_cons, List.filterMap_map]
      exact congrArg (item :: ·) ih

theorem Stores.stored_eq {cb : Clbuf α} {items : List α} (stores : cb.Stores items) :
    cb.stored = items := by
  have hslots : ∀ offset ∈ List.range items.length,
      cb.slots ((cb.readIndex.toNat + offset) % cb.allocatedSize.toNat) = items[offset]? := by
    intro offset hoffset
    exact stores.window.holds offset
      (Nat.lt_of_lt_of_le (List.mem_range.mp hoffset) stores.fits)
  rw [stored, countUsed_eq stores, List.filterMap_congr hslots, filterMap_getElem?_range]

theorem Stores.pop_some {cb after : Clbuf α} {items : List α} {item : α} (stores : cb.Stores items)
    (hpop : clbufPop cb = (some item, after)) :
    ∃ rest, items = item :: rest ∧ after.Stores rest := by
  cases items with
  | nil =>
      rw [pop_empty stores] at hpop
      cases hpop
  | cons oldest rest =>
      obtain ⟨hreply, hafter⟩ := pop_oldest stores
      rw [hpop] at hreply hafter
      cases hreply
      exact ⟨rest, rfl, hafter⟩

/-- A pop that finds nothing changes nothing. -/
theorem Stores.pop_none {cb after : Clbuf α} {items : List α} (stores : cb.Stores items)
    (hpop : clbufPop cb = (none, after)) : items = [] ∧ after = cb := by
  cases items with
  | nil =>
      rw [pop_empty stores] at hpop
      cases hpop
      exact ⟨rfl, rfl⟩
  | cons oldest rest =>
      have hreply := (pop_oldest stores).1
      rw [hpop] at hreply
      cases hreply

/-- An item is stored exactly if some slot of the buffer points to it. -/
theorem Stores.mem_iff {cb : Clbuf α} {items : List α} (stores : cb.Stores items) (item : α) :
    item ∈ items ↔ some item ∈ cb.buffer := by
  have hpos := cb.allocatedSize_pos
  constructor
  · intro hitem
    obtain ⟨offset, hoffset, hget⟩ := List.mem_iff_getElem.mp hitem
    have hslot := stores.window.holds offset (Nat.lt_of_lt_of_le hoffset stores.fits)
    rw [List.getElem?_eq_getElem hoffset, hget, slots] at hslot
    have hplace : (cb.readIndex.toNat + offset) % cb.allocatedSize.toNat < cb.buffer.length := by
      rw [cb.buffer_length]
      exact Nat.mod_lt _ hpos
    rw [List.getD_eq_getElem _ _ hplace] at hslot
    rw [← hslot]
    exact List.getElem_mem hplace
  · intro hslot
    obtain ⟨place, hplace, hget⟩ := List.mem_iff_getElem.mp hslot
    have hsize : place < cb.allocatedSize.toNat := cb.buffer_length ▸ hplace
    have hread := cb.readIndex_lt
    -- The place, counted from `read_index` on round the circle.
    have hoffset := stores.window.holds
      ((place + (cb.allocatedSize.toNat - cb.readIndex.toNat)) % cb.allocatedSize.toNat)
      (Nat.mod_lt _ hpos)
    have hback : cb.readIndex.toNat + (place + (cb.allocatedSize.toNat - cb.readIndex.toNat)) =
        place + cb.allocatedSize.toNat := by omega
    rw [Nat.add_mod_mod, hback, Nat.add_mod_right, Nat.mod_eq_of_lt hsize, slots,
      List.getD_eq_getElem _ _ hplace, hget] at hoffset
    exact List.mem_of_getElem? hoffset.symm

/-! ## Every sequence of calls -/

/-- The buffer with `capacity` slots, read as the bounded list of its items. -/
structure Refines {capacity : Nat} (cb : Clbuf α) (fifo : Fifo α capacity) : Prop where
  stores : cb.Stores fifo.items
  capacity_eq : cb.allocatedSize.toNat = capacity

theorem push_allocatedSize (cb : Clbuf α) (ptr : Option α) :
    (clbufPush cb ptr).2.allocatedSize = cb.allocatedSize := by
  cases ptr with
  | none => rfl
  | some item => simp only [clbufPush]; split <;> rfl

theorem pop_allocatedSize (cb : Clbuf α) :
    (clbufPop cb).2.allocatedSize = cb.allocatedSize := by
  unfold clbufPop
  split <;> rfl

theorem push_refines {capacity : Nat} {cb : Clbuf α} {fifo : Fifo α capacity}
    (refines : cb.Refines fifo) (ptr : Option α) :
    (clbufPush cb ptr).1 = (fifo.push ptr).1 ∧
      (clbufPush cb ptr).2.Refines (fifo.push ptr).2 := by
  have hcapacity := (push_allocatedSize cb ptr).symm ▸ refines.capacity_eq
  cases ptr with
  | none => exact ⟨rfl, refines⟩
  | some item =>
      by_cases hroom : fifo.items.length < capacity
      · obtain ⟨hreply, hstores⟩ :=
          push_room refines.stores (refines.capacity_eq.symm ▸ hroom) item
        rw [Fifo.push, dif_pos hroom]
        exact ⟨hreply, hstores, hcapacity⟩
      · have hfull : fifo.items.length = cb.allocatedSize.toNat := by
          rw [refines.capacity_eq]
          exact Nat.le_antisymm fifo.bounded (Nat.le_of_not_lt hroom)
        rw [Fifo.push, dif_neg hroom, push_full refines.stores hfull]
        exact ⟨rfl, refines⟩

theorem pop_refines {capacity : Nat} {cb : Clbuf α} {fifo : Fifo α capacity}
    (refines : cb.Refines fifo) :
    (clbufPop cb).1 = fifo.pop.1 ∧ (clbufPop cb).2.Refines fifo.pop.2 := by
  have hcapacity := (pop_allocatedSize cb).symm ▸ refines.capacity_eq
  obtain ⟨items, bounded⟩ := fifo
  cases items with
  | nil =>
      rw [pop_empty refines.stores]
      exact ⟨rfl, refines⟩
  | cons item rest =>
      obtain ⟨hreply, hstores⟩ := pop_oldest refines.stores
      exact ⟨hreply, hstores, hcapacity⟩

theorem Refines.countFree_eq {capacity : Nat} {cb : Clbuf α} {fifo : Fifo α capacity}
    (refines : cb.Refines fifo) :
    (clbufCountFree cb).toNat = capacity - fifo.items.length := by
  rw [Clbuf.countFree_eq refines.stores, refines.capacity_eq]

/-- Buffer and list answer every call alike and stay related. -/
theorem perform_simulates (α : Type) (capacity : Nat) :
    Machine.Simulation (fun (cb : Clbuf α) call => cb.perform call)
      (fun (fifo : Fifo α capacity) call => fifo.perform call) Refines where
  reply call refines := by
    cases call with
    | push ptr => exact congrArg Reply.item (push_refines refines ptr).1
    | pop => exact congrArg Reply.item (pop_refines refines).1
    | countUsed => exact congrArg Reply.count (countUsed_eq refines.stores)
    | countFree => exact congrArg Reply.count refines.countFree_eq
  next call refines := by
    cases call with
    | push ptr => exact (push_refines refines ptr).2
    | pop => exact (pop_refines refines).2
    | countUsed => exact refines
    | countFree => exact refines

theorem create_refines (α : Type) (size : UInt32) (hsize : 0 < size.toNat) :
    (clbufCreate α size hsize).Refines (Fifo.empty α size.toNat) :=
  ⟨stores_create size hsize, rfl⟩

/-- What the next call of a buffer that stores `items` returns and leaves. -/
structure ActsAsFifo (cb : Clbuf α) (items : List α) (capacity : Nat) : Prop where
  bounded : items.length ≤ capacity
  push_appends : ∀ item, items.length < capacity →
    (clbufPush cb (some item)).1 = some item ∧
      (clbufPush cb (some item)).2.Stores (items ++ [item])
  push_refused : ∀ item, ¬ items.length < capacity → clbufPush cb (some item) = (none, cb)
  push_ignored : clbufPush cb none = (none, cb)
  pop_removes : ∀ item rest, items = item :: rest →
    (clbufPop cb).1 = some item ∧ (clbufPop cb).2.Stores rest
  pop_refused : items = [] → clbufPop cb = (none, cb)
  used : (clbufCountUsed cb).toNat = items.length
  free : (clbufCountFree cb).toNat = capacity - items.length

theorem Refines.actsAsFifo {capacity : Nat} {cb : Clbuf α} {fifo : Fifo α capacity}
    (refines : cb.Refines fifo) : cb.ActsAsFifo fifo.items capacity where
  bounded := fifo.bounded
  push_appends item hroom := push_room refines.stores (refines.capacity_eq.symm ▸ hroom) item
  push_refused item hroom := push_full refines.stores
    (refines.capacity_eq.symm ▸ Nat.le_antisymm fifo.bounded (Nat.le_of_not_lt hroom)) item
  push_ignored := push_null cb
  pop_removes _ _ heq := pop_oldest (heq ▸ refines.stores)
  pop_refused heq := pop_empty (heq ▸ refines.stores)
  used := countUsed_eq refines.stores
  free := refines.countFree_eq

/-- The calls of all threads, each one atomic under the buffer's lock, in the
order in which they took it. -/
def performAs {τ : Type} (cb : Clbuf α) (call : τ × Call α) : Reply α × Clbuf α :=
  cb.perform call.2

end Clbuf

/-- From `clbuf_create(size)` on, whatever threads call in whatever order, the
buffer gives the replies of the empty list of capacity `size`, and the state it
ends in treats every further call as that list does. -/
theorem clbuf_behaves_as_bounded_fifo {τ : Type} (size : UInt32) (hsize : 1 ≤ size.toNat)
    (calls : List (τ × Call α)) :
    let final := Machine.run Clbuf.performAs (clbufCreate α size hsize) calls
    let list := Machine.run (fun (fifo : Fifo α size.toNat) (call : τ × Call α) =>
      fifo.perform call.2) (Fifo.empty α size.toNat) calls
    final.1 = list.1 ∧ final.2.Stores list.2.items ∧
      final.2.ActsAsFifo list.2.items size.toNat := by
  have simulation : Machine.Simulation (Clbuf.performAs (τ := τ) (α := α))
      (fun (fifo : Fifo α size.toNat) (call : τ × Call α) => fifo.perform call.2)
      Clbuf.Refines :=
    ⟨fun call => (Clbuf.perform_simulates α size.toNat).reply call.2,
      fun call => (Clbuf.perform_simulates α size.toNat).next call.2⟩
  obtain ⟨hreplies, hrefines⟩ :=
    simulation.run (Clbuf.create_refines α size hsize) calls
  exact ⟨hreplies, hrefines.stores, hrefines.actsAsFifo⟩

/-- A one-slot buffer through a refused push, a pop and a refused pop. -/
theorem clbuf_behaves_as_bounded_fifo_one :
    let calls : List (Nat × Call Nat) :=
      [(0, .push (some 7)), (1, .push (some 8)), (0, .countUsed), (1, .pop), (1, .pop)]
    (Machine.run Clbuf.performAs (clbufCreate Nat 1 (by decide)) calls).1 =
      [.item (some 7), .item none, .count 1, .item (some 7), .item none] :=
  (clbuf_behaves_as_bounded_fifo 1 (by decide) _).1.trans (by decide)

end ClusteredPoller.Queue
