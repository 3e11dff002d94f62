import Mathlib.Data.List.Basic

/-!
# The last setting wins

Items are applied one after another, and each of them sets a field or leaves it
as it is.  In the end the field has what the last item that sets it says, or
its first value.
-/

namespace ClusteredPoller.Library.LastSetting

variable {σ ι α : Type}

/-- What the last item that sets the field says. -/
def last (setting : ι → Option α) (items : List ι) : Option α :=
  (items.filterMap setting).getLast?

/-- An item sets the field, or leaves it. -/
def Sets (apply : σ → ι → σ) (field : σ → α) (setting : ι → Option α) : Prop :=
  ∀ state item, field (apply state item) = (setting item).getD (field state)

variable {apply : σ → ι → σ} {field : σ → α} {setting : ι → Option α}

theorem last_cons (item : ι) (items : List ι) :
    last setting (item :: items) = (last setting items).or (setting item) := by
  unfold last
  cases hitem : setting item with
  | none => rw [List.filterMap_cons_none hitem, Option.or_none]
  | some value =>
      rw [List.filterMap_cons_some hitem, List.getLast?_cons]
      cases (items.filterMap setting).getLast? with
      | none => rfl
      | some other => rfl

/-- An item that sets a constant counts wherever it is. -/
theorem last_const [DecidableEq ι] (wanted : ι) (value : α) (items : List ι) :
    last (fun item => if item = wanted then some value else none) items =
      if wanted ∈ items then some value else none := by
  induction items with
  | nil => rfl
  | cons item items ih =>
      rw [last_cons, ih]
      by_cases hlater : wanted ∈ items
      · rw [if_pos hlater, if_pos (List.mem_cons_of_mem _ hlater), Option.some_or]
      · rw [if_neg hlater, Option.none_or]
        simp only [List.mem_cons, hlater, or_false, eq_comm]

theorem last_map {β : Type} (convert : α → β) (items : List ι) :
    last (fun item => (setting item).map convert) items = (last setting items).map convert := by
  unfold last
  rw [← List.getLast?_map, List.map_filterMap]

theorem foldl_field (sets : Sets apply field setting) (items : List ι) (start : σ) :
    field (items.foldl apply start) = (last setting items).getD (field start) := by
  induction items generalizing start with
  | nil => rfl
  | cons item items ih =>
      rw [List.foldl_cons, ih, sets, last_cons]
      cases last setting items with
      | none => rfl
      | some value => rfl

end ClusteredPoller.Library.LastSetting
