import Mathlib.Data.Fintype.Card
import Mathlib.Data.Fintype.Fin
import Mathlib.Logic.Function.Basic

/-!
# Counting threads

The number of threads, among finitely many, whose state has some property, and
how it changes when one thread changes its state.
-/

namespace ClusteredPoller.Library.Census

variable {n : Nat} {τ : Type}

/-- The number of threads with the property. -/
def census (property : τ → Bool) (threads : Fin n → τ) : Nat :=
  (Finset.univ.filter fun i => property (threads i) = true).card

variable {property : τ → Bool} {threads : Fin n → τ} {i : Fin n} {state : τ}

theorem census_le : census property threads ≤ n :=
  (Finset.card_filter_le _ _).trans_eq (Finset.card_fin n)

theorem census_eq_zero_iff :
    census property threads = 0 ↔ ∀ i, property (threads i) = false := by
  rw [census, Finset.card_eq_zero, Finset.filter_eq_empty_iff]
  simp only [Finset.mem_univ, forall_const, Bool.not_eq_true]

/-- A thread whose property does not change leaves the number as it is. -/
theorem census_update_same (hsame : property state = property (threads i)) :
    census property (Function.update threads i state) = census property threads := by
  unfold census
  refine congrArg Finset.card (Finset.filter_congr fun j _ => ?_)
  by_cases hij : j = i
  · rw [hij, Function.update_self, hsame]
  · rw [Function.update_of_ne hij]

/-- A thread that takes on the property adds one. -/
theorem census_update_gain (hbefore : property (threads i) = false)
    (hafter : property state = true) :
    census property (Function.update threads i state) = census property threads + 1 := by
  have hset : (Finset.univ.filter fun j => property (Function.update threads i state j) = true) =
      insert i (Finset.univ.filter fun j => property (threads j) = true) := by
    ext j
    simp only [Finset.mem_filter, Finset.mem_univ, true_and, Finset.mem_insert]
    by_cases hij : j = i
    · rw [hij, Function.update_self]
      exact iff_of_true hafter (Or.inl rfl)
    · rw [Function.update_of_ne hij]
      exact ⟨Or.inr, fun hor => hor.resolve_left hij⟩
  rw [census, hset, Finset.card_insert_of_notMem]
  · rfl
  · rw [Finset.mem_filter, hbefore]
    exact fun impossible => Bool.false_ne_true impossible.2

/-- A thread that loses the property takes one away. -/
theorem census_update_loss (hbefore : property (threads i) = true)
    (hafter : property state = false) :
    census property (Function.update threads i state) + 1 = census property threads := by
  have hgain := @census_update_gain n τ property (Function.update threads i state) i (threads i)
    (by rw [Function.update_self, hafter]) hbefore
  rw [Function.update_idem, Function.update_eq_self] at hgain
  exact hgain.symm

/-! ## A counter in a machine word -/

variable {word : UInt32}

/-- The counter of the threads takes one more. -/
theorem toNat_add_one (hthreads : n < 2 ^ 32) (hcount : word.toNat = census property threads)
    (hbefore : property (threads i) = false) (hafter : property state = true) :
    (word + 1).toNat = census property (Function.update threads i state) := by
  have hgain := census_update_gain hbefore hafter
  have hle : word.toNat + 1 ≤ n := by
    rw [hcount, ← hgain]
    exact census_le
  rw [UInt32.toNat_add, hgain, ← hcount]
  exact Nat.mod_eq_of_lt (Nat.lt_of_le_of_lt hle hthreads)

/-- The counter of the threads takes one less; it is not zero. -/
theorem toNat_sub_one (hcount : word.toNat = census property threads)
    (hbefore : property (threads i) = true) (hafter : property state = false) :
    word ≠ 0 ∧ (word - 1).toNat = census property (Function.update threads i state) := by
  have hloss := census_update_loss hbefore hafter
  have hone : 1 ≤ word.toNat := by
    rw [hcount, ← hloss]
    exact Nat.le_add_left 1 _
  constructor
  · rintro rfl
    exact absurd hone (by decide)
  · have hsub : (word - 1).toNat = word.toNat - 1 :=
      UInt32.toNat_sub_of_le _ _ (UInt32.le_iff_toNat_le.mpr hone)
    rw [hsub, hcount, ← hloss, Nat.add_sub_cancel]

end ClusteredPoller.Library.Census
