import Mathlib.Algebra.BigOperators.Ring.Multiset
import Mathlib.Algebra.BigOperators.Group.Finset.Piecewise

/-!
# Who holds what

Finitely many holders have bags of items.  An item that passes from one holder
to another leaves the bag of everything held as it is.  As long as that bag has
no item twice, each item in it has exactly one holder.
-/

namespace ClusteredPoller.Library.Holdings

open scoped BigOperators

variable {κ α : Type} [Fintype κ] [DecidableEq κ]

/-- The bag of everything that is held. -/
def total (holds : κ → Multiset α) : Multiset α := ∑ holder, holds holder

/-- An item passes from a holder to another one. -/
structure Passes (holds next : κ → Multiset α) (source target : κ) (item : α) : Prop where
  distinct : source ≠ target
  loses : holds source = item ::ₘ next source
  gains : next target = item ::ₘ holds target
  others : ∀ other, other ≠ source → other ≠ target → next other = holds other

/-- A holder gains a bag of new items. -/
structure Gains (holds next : κ → Multiset α) (target : κ) (bag : Multiset α) : Prop where
  gains : next target = holds target + bag
  others : ∀ other, other ≠ target → next other = holds other

section Total

variable {holds next : κ → Multiset α} {source target : κ} {item : α} {bag : Multiset α}

theorem Gains.total_eq (gains : Gains holds next target bag) :
    total next = total holds + bag := by
  have hnext : ∀ holder, next holder = holds holder + if holder = target then bag else 0 := by
    intro holder
    by_cases htarget : holder = target
    · rw [if_pos htarget, htarget, gains.gains]
    · rw [if_neg htarget, gains.others holder htarget, add_zero]
  rw [total, Finset.sum_congr rfl fun holder _ => hnext holder, Finset.sum_add_distrib,
    Finset.sum_ite_eq' Finset.univ target, if_pos (Finset.mem_univ _)]
  rfl

/-- The bags without the item gain it at the source before, and at the target
afterwards. -/
theorem Passes.total_eq (passes : Passes holds next source target item) :
    total next = total holds := by
  have before : Gains (Function.update holds source (next source)) holds source {item} := by
    constructor
    · rw [Function.update_self, passes.loses, Multiset.add_comm, Multiset.singleton_add]
    · intro other hother
      rw [Function.update_of_ne hother]
  have after : Gains (Function.update holds source (next source)) next target {item} := by
    constructor
    · rw [Function.update_of_ne passes.distinct.symm, passes.gains, Multiset.add_comm,
        Multiset.singleton_add]
    · intro other hother
      by_cases hsource : other = source
      · rw [hsource, Function.update_self]
      · rw [Function.update_of_ne hsource, passes.others other hsource hother]
  rw [after.total_eq, before.total_eq]

end Total

section Holder

variable {holds : κ → Multiset α} {item : α}

omit [DecidableEq κ] in
theorem mem_total : item ∈ total holds ↔ ∃ holder, item ∈ holds holder := by
  simp [total, Multiset.mem_sum]

/-- One bag apart from the others. -/
theorem total_eq_add_erase (holder : κ) :
    total holds = holds holder + ∑ other ∈ Finset.univ.erase holder, holds other :=
  (Finset.add_sum_erase _ _ (Finset.mem_univ holder)).symm

/-- No holder has an item twice. -/
theorem nodup_holds (hnodup : (total holds).Nodup) (holder : κ) : (holds holder).Nodup := by
  rw [total_eq_add_erase holder] at hnodup
  exact (Multiset.nodup_add.mp hnodup).1

/-- An item has one holder. -/
theorem existsUnique_holder (hnodup : (total holds).Nodup) (hitem : item ∈ total holds) :
    ∃! holder, item ∈ holds holder := by
  obtain ⟨holder, hholder⟩ := mem_total.mp hitem
  refine ⟨holder, hholder, fun other hother => ?_⟩
  by_contra hne
  rw [total_eq_add_erase holder] at hnodup
  have hrest : item ∈ ∑ other ∈ Finset.univ.erase holder, holds other :=
    Multiset.mem_sum.mpr ⟨other, Finset.mem_erase.mpr ⟨hne, Finset.mem_univ _⟩, hother⟩
  exact Multiset.disjoint_left.mp (Multiset.nodup_add.mp hnodup).2.2 hholder hrest

end Holder

end ClusteredPoller.Library.Holdings
