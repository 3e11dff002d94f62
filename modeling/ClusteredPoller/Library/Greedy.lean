import Mathlib.Data.List.Basic
import Mathlib.Data.List.Induction

/-!
# Keeping what clashes with nothing kept

Items come one after another, and each is kept unless one that was kept clashes
with it.  Whether an item is kept depends on the kept ones in front of it only,
not on those that were dropped.
-/

namespace ClusteredPoller.Library.Greedy

variable {Item : Type} (clashes : Item → Item → Bool)

def keepUnless (kept : List Item) (item : Item) : List Item :=
  if kept.any fun earlier => clashes earlier item then kept else kept ++ [item]

def sift (items : List Item) : List Item := items.foldl (keepUnless clashes) []

/-- The items at the marked positions, in their order. -/
def marked (marks : Nat → Bool) (items : List Item) : List Item :=
  ((List.range items.length).filter marks).filterMap fun index => items[index]?

/-- Marked is exactly what no marked item in front of it clashes with. -/
def MarksGreedily (marks : Nat → Bool) (items : List Item) : Prop :=
  ∀ index item, items[index]? = some item →
    (marks index = true ↔
      ∀ earlier other, earlier < index → marks earlier = true → items[earlier]? = some other →
        clashes other item = false)

theorem mem_marked {marks : Nat → Bool} {items : List Item} {item : Item} :
    item ∈ marked marks items ↔ ∃ index, marks index = true ∧ items[index]? = some item := by
  simp only [marked, List.mem_filterMap, List.mem_filter, List.mem_range]
  constructor
  · rintro ⟨index, ⟨-, hmark⟩, hitem⟩
    exact ⟨index, hmark, hitem⟩
  · rintro ⟨index, hmark, hitem⟩
    obtain ⟨hindex, -⟩ := List.getElem?_eq_some_iff.mp hitem
    exact ⟨index, ⟨hindex, hmark⟩, hitem⟩

variable {clashes}

theorem marked_append {marks : Nat → Bool} {items : List Item} {item : Item} {mark : Bool} :
    marked (Function.update marks items.length mark) (items ++ [item]) =
      marked marks items ++ (if mark then [item] else []) := by
  have hbefore : (List.range items.length).filter (Function.update marks items.length mark) =
      (List.range items.length).filter marks := by
    refine List.filter_congr fun index hindex => ?_
    rw [Function.update_of_ne (Nat.ne_of_lt (List.mem_range.mp hindex))]
  have hsame : ((List.range items.length).filter marks).filterMap
      (fun index => (items ++ [item])[index]?) = marked marks items := by
    refine List.filterMap_congr fun index hindex => ?_
    rw [List.getElem?_append_left (List.mem_range.mp (List.mem_of_mem_filter hindex))]
  rw [marked, List.length_append, List.length_singleton, List.range_succ, List.filter_append,
    List.filterMap_append, hbefore, hsame]
  congr 1
  cases mark <;> simp

theorem MarksGreedily.append {marks : Nat → Bool} {items : List Item}
    (greedy : MarksGreedily clashes marks items) (item : Item) :
    MarksGreedily clashes
      (Function.update marks items.length
        !((marked marks items).any fun earlier => clashes earlier item)) (items ++ [item]) := by
  intro index found hfound
  obtain ⟨hindex, -⟩ := List.getElem?_eq_some_iff.mp hfound
  rw [List.length_append, List.length_singleton] at hindex
  -- Marks in front of the new item are those that were there.
  have hold : ∀ earlier, earlier < items.length →
      Function.update marks items.length
        (!((marked marks items).any fun earlier => clashes earlier item)) earlier =
        marks earlier := fun earlier hearlier => Function.update_of_ne (Nat.ne_of_lt hearlier) _ _
  rcases Nat.lt_succ_iff_lt_or_eq.mp hindex with hbefore | rfl
  · rw [List.getElem?_append_left hbefore] at hfound
    rw [hold index hbefore, greedy index found hfound]
    refine forall_congr' fun earlier => forall_congr' fun other => forall_congr' fun hlt => ?_
    have hearlier : earlier < items.length := Nat.lt_trans hlt hbefore
    rw [hold earlier hearlier, List.getElem?_append_left hearlier]
  · have hnew : found = item := by simpa using hfound.symm
    rw [Function.update_self, hnew, Bool.not_eq_true', List.any_eq_false]
    constructor
    · intro hnone earlier other hearlier hmark hother
      rw [hold earlier hearlier] at hmark
      rw [List.getElem?_append_left hearlier] at hother
      simpa using hnone other (mem_marked.mpr ⟨earlier, hmark, hother⟩)
    · intro hnone other hother
      obtain ⟨earlier, hmark, hget⟩ := mem_marked.mp hother
      obtain ⟨hearlier, -⟩ := List.getElem?_eq_some_iff.mp hget
      have hclear := hnone earlier other hearlier (by rw [hold earlier hearlier, hmark])
        (by rw [List.getElem?_append_left hearlier, hget])
      simp [hclear]

/-- What is kept is what is greedily marked. -/
theorem sift_greedy (items : List Item) :
    ∃ marks, MarksGreedily clashes marks items ∧ sift clashes items = marked marks items := by
  induction items using List.reverseRecOn with
  | nil => exact ⟨fun _ => false, ⟨fun index item himpossible => (by cases himpossible), rfl⟩⟩
  | append_singleton items item ih =>
      obtain ⟨marks, greedy, hsift⟩ := ih
      refine ⟨_, greedy.append item, ?_⟩
      rw [marked_append, sift, List.foldl_append, List.foldl_cons, List.foldl_nil, ← hsift]
      change keepUnless clashes (sift clashes items) item = _
      rw [keepUnless]
      cases (sift clashes items).any fun earlier => clashes earlier item <;> simp

/-- Nothing that is kept clashes with an earlier one. -/
theorem sift_pairwise (items : List Item) :
    (sift clashes items).Pairwise fun earlier item => clashes earlier item = false := by
  induction items using List.reverseRecOn with
  | nil => exact List.Pairwise.nil
  | append_singleton items item ih =>
      rw [sift, List.foldl_append, List.foldl_cons, List.foldl_nil]
      change (keepUnless clashes (sift clashes items) item).Pairwise _
      rw [keepUnless]
      split
      · exact ih
      · next hnone =>
          rw [List.pairwise_append]
          refine ⟨ih, List.pairwise_singleton _ _, fun earlier hearlier other hother => ?_⟩
          rw [List.mem_singleton.mp hother]
          simpa using fun hclash => hnone (List.any_eq_true.mpr ⟨earlier, hearlier, hclash⟩)

end ClusteredPoller.Library.Greedy
