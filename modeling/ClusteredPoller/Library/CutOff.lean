import Mathlib.Data.List.Basic

/-!
# Giving up after too many failures

Items are tried in order.  The failures are counted, and behind each item the
count is compared with a limit; once it is reached no further item is tried.
-/

namespace ClusteredPoller.Library.CutOff

variable {Item : Type} (failed : Item → Bool) (limit : Nat)

/-- The items that are tried when `failures` have been counted before. -/
def tried : Nat → List Item → List Item
  | _, [] => []
  | failures, item :: items =>
      let counted := if failed item then failures + 1 else failures
      item :: if limit ≤ counted then [] else tried counted items

/-- The shortest prefix with as many failures as the limit, or all items if they
have fewer. -/
structure IsCut (items taken : List Item) : Prop where
  isPrefix : taken <+: items
  whole : items.countP failed < limit → taken = items
  enough : limit ≤ items.countP failed → limit ≤ taken.countP failed
  shortest : ∀ other, other <+: items → limit ≤ other.countP failed → taken.length ≤ other.length

variable {failed limit}

theorem tried_prefix (failures : Nat) (items : List Item) :
    tried failed limit failures items <+: items := by
  induction items generalizing failures with
  | nil => exact List.prefix_refl _
  | cons item items ih =>
      rw [tried]
      generalize (if failed item then failures + 1 else failures) = counted
      apply (List.prefix_cons_inj item).mpr
      by_cases hlimit : limit ≤ counted
      · rw [if_pos hlimit]
        exact List.nil_prefix
      · rw [if_neg hlimit]
        exact ih counted

/-- The item with which the limit is reached. -/
theorem isCut_last {item : Item} (hfailed : failed item = true) (items : List Item) :
    IsCut failed 1 (item :: items) [item] where
  isPrefix := (List.prefix_cons_inj item).mpr List.nil_prefix
  whole hfew := by
    rw [List.countP_cons_of_pos hfailed] at hfew
    omega
  enough _ := by simp [hfailed]
  shortest other _ hother := by
    cases other with
    | nil => cases hother
    | cons first rest => simp

theorem isCut_cons {item : Item} {items taken : List Item} {missing : Nat}
    (hmissing : 0 < missing) (cut : IsCut failed missing items taken) :
    IsCut failed (missing + if failed item then 1 else 0) (item :: items) (item :: taken) where
  isPrefix := (List.prefix_cons_inj item).mpr cut.isPrefix
  whole hfew := by
    rw [List.countP_cons] at hfew
    rw [cut.whole (by omega)]
  enough hmany := by
    rw [List.countP_cons] at hmany ⊢
    have henough := cut.enough (by omega)
    omega
  shortest other hinitial hother := by
    cases other with
    | nil =>
        rw [List.countP_nil] at hother
        omega
    | cons first rest =>
        obtain ⟨rfl, hrest⟩ := List.cons_prefix_cons.mp hinitial
        rw [List.countP_cons] at hother
        exact Nat.succ_le_succ (cut.shortest rest hrest (by omega))

/-- With fewer failures so far than the limit, the missing ones are waited for. -/
theorem tried_isCut {failures : Nat} (hfailures : failures < limit) (items : List Item) :
    IsCut failed (limit - failures) items (tried failed limit failures items) := by
  induction items generalizing failures with
  | nil =>
      refine ⟨List.prefix_refl _, fun _ => rfl, ?_, fun _ _ _ => Nat.zero_le _⟩
      exact fun himpossible => absurd himpossible (Nat.not_le.mpr (Nat.sub_pos_of_lt hfailures))
  | cons item items ih =>
      rw [tried]
      cases hitem : failed item with
      | false =>
          have hcut := @isCut_cons Item failed item items _ _ (by omega) (ih hfailures)
          rw [hitem] at hcut
          rw [if_neg Bool.false_ne_true, if_neg (Nat.not_le.mpr hfailures)]
          exact hcut
      | true =>
          rw [if_pos rfl]
          by_cases hlast : limit ≤ failures + 1
          · have hone : limit - failures = 1 := by omega
            rw [if_pos hlast, hone]
            exact isCut_last hitem items
          · have hcut := @isCut_cons Item failed item items _ _ (by omega)
              (@ih (failures + 1) (by omega))
            have hmissing : limit - (failures + 1) + 1 = limit - failures := by omega
            rw [hitem, if_pos rfl, hmissing] at hcut
            rw [if_neg hlast]
            exact hcut

end ClusteredPoller.Library.CutOff
