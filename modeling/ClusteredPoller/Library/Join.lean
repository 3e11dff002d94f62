import ClusteredPoller.Library.Grouping

/-!
# Joining two lists by key

One source after another looks for the first item with its key and changes it.
If no two items and no two sources have the same key, every item is changed by
the source with its key, and by no other.
-/

namespace ClusteredPoller.Library.Join

variable {Item Source Key : Type} [DecidableEq Key] (itemKey : Item → Key)
  (sourceKey : Source → Key) (change : Item → Source → Item)

/-- Where the first item with the key of the source stands. -/
def place (items : List Item) (source : Source) : Option Nat :=
  items.findIdx? fun item => decide (sourceKey source = itemKey item)

/-- Change the first item with the key of the source. -/
def changeFirst (items : List Item) (source : Source) : List Item :=
  match place itemKey sourceKey items source with
  | some index => items.modify index fun item => change item source
  | none => items

/-- One source after another. -/
def changeAll (items : List Item) (sources : List Source) : List Item :=
  sources.foldl (changeFirst itemKey sourceKey change) items

/-- The item, changed by the source with its key. -/
def joined (sources : List Source) (item : Item) : Item :=
  match sources.find? fun source => decide (sourceKey source = itemKey item) with
  | some source => change item source
  | none => item

variable {itemKey sourceKey change}

theorem place_cons (item : Item) (items : List Item) (source : Source) :
    place itemKey sourceKey (item :: items) source =
      if sourceKey source = itemKey item then some 0
      else (place itemKey sourceKey items source).map (· + 1) := by
  rw [place, List.findIdx?_cons]
  by_cases heq : sourceKey source = itemKey item
  · rw [if_pos heq, if_pos (decide_eq_true heq)]
  · rw [if_neg heq, if_neg (by simpa using heq)]
    rfl

theorem changeFirst_cons (item : Item) (items : List Item) (source : Source) :
    changeFirst itemKey sourceKey change (item :: items) source =
      if sourceKey source = itemKey item then change item source :: items
      else item :: changeFirst itemKey sourceKey change items source := by
  unfold changeFirst
  rw [place_cons]
  by_cases heq : sourceKey source = itemKey item
  · rw [if_pos heq, if_pos heq]
    rfl
  · rw [if_neg heq, if_neg heq]
    cases place itemKey sourceKey items source with
    | none => rfl
    | some index => rfl

theorem joined_cons (source : Source) (sources : List Source) (item : Item) :
    joined itemKey sourceKey change (source :: sources) item =
      if sourceKey source = itemKey item then change item source
      else joined itemKey sourceKey change sources item := by
  unfold joined
  rw [List.find?_cons]
  by_cases heq : sourceKey source = itemKey item
  · rw [if_pos heq, decide_eq_true heq]
  · rw [if_neg heq, decide_eq_false heq]

theorem joined_missing {sources : List Source} {item : Item}
    (hmissing : ∀ source ∈ sources, sourceKey source ≠ itemKey item) :
    joined itemKey sourceKey change sources item = item := by
  have hnone : (sources.find? fun source => decide (sourceKey source = itemKey item)) = none := by
    simpa using hmissing
  rw [joined, hnone]

/-- Without an item with its key, a source changes nothing. -/
theorem changeFirst_missing {items : List Item} {source : Source}
    (hmissing : ∀ item ∈ items, sourceKey source ≠ itemKey item) :
    changeFirst itemKey sourceKey change items source = items := by
  have hplace : place itemKey sourceKey items source = none := by
    simpa [place] using hmissing
  rw [changeFirst, hplace]

/-- The first item with a key is the only one. -/
theorem changeFirst_eq_map {items : List Item} (hdistinct : (items.map itemKey).Nodup)
    (source : Source) :
    changeFirst itemKey sourceKey change items source = items.map fun item =>
      if sourceKey source = itemKey item then change item source else item := by
  induction items with
  | nil => rfl
  | cons item items ih =>
      obtain ⟨hfirst, hrest⟩ := List.nodup_cons.mp hdistinct
      rw [changeFirst_cons, List.map_cons]
      by_cases heq : sourceKey source = itemKey item
      · have hothers : ∀ other ∈ items, sourceKey source ≠ itemKey other :=
          fun other hother hsame => hfirst (heq ▸ hsame ▸ List.mem_map_of_mem hother)
        rw [if_pos heq, if_pos heq, ← ih hrest, changeFirst_missing hothers]
      · rw [if_neg heq, if_neg heq, ih hrest]

/-- What no change breaks holds of all items afterwards. -/
theorem changeFirst_keeps {Holds : Item → Prop}
    (hchange : ∀ item source, Holds item → Holds (change item source)) {items : List Item}
    (hitems : ∀ item ∈ items, Holds item) (source : Source) :
    ∀ item ∈ changeFirst itemKey sourceKey change items source, Holds item := by
  induction items with
  | nil => exact hitems
  | cons first items ih =>
      obtain ⟨hfirst, hrest⟩ := List.forall_mem_cons.mp hitems
      rw [changeFirst_cons]
      split
      · exact List.forall_mem_cons.mpr ⟨hchange first source hfirst, hrest⟩
      · exact List.forall_mem_cons.mpr ⟨hfirst, ih hrest⟩

theorem changeAll_keeps {Holds : Item → Prop}
    (hchange : ∀ item source, Holds item → Holds (change item source)) {items : List Item}
    (hitems : ∀ item ∈ items, Holds item) (sources : List Source) :
    ∀ item ∈ changeAll itemKey sourceKey change items sources, Holds item := by
  induction sources generalizing items with
  | nil => exact hitems
  | cons source sources ih => exact ih (changeFirst_keeps hchange hitems source)

section Keys

variable (hkey : ∀ item source, itemKey (change item source) = itemKey item)

include hkey

theorem changeFirst_keys (items : List Item) (source : Source) :
    (changeFirst itemKey sourceKey change items source).map itemKey = items.map itemKey := by
  induction items with
  | nil => rfl
  | cons item items ih =>
      rw [changeFirst_cons]
      split
      · rw [List.map_cons, hkey, List.map_cons]
      · rw [List.map_cons, ih, List.map_cons]

theorem joined_key (sources : List Source) (item : Item) :
    itemKey (joined itemKey sourceKey change sources item) = itemKey item := by
  unfold joined
  split
  · exact hkey item _
  · rfl

/-- A source for every item, whatever the order of the two lists. -/
theorem changeAll_eq_map {items : List Item} {sources : List Source}
    (hitems : (items.map itemKey).Nodup) (hsources : (sources.map sourceKey).Nodup) :
    changeAll itemKey sourceKey change items sources =
      items.map (joined itemKey sourceKey change sources) := by
  induction sources generalizing items with
  | nil => exact (List.map_id items).symm
  | cons source sources ih =>
      obtain ⟨hfirst, hrest⟩ := List.nodup_cons.mp hsources
      have hkept : ((changeFirst itemKey sourceKey change items source).map itemKey).Nodup := by
        rw [changeFirst_keys hkey]
        exact hitems
      have hturn : changeAll itemKey sourceKey change items (source :: sources) =
          changeAll itemKey sourceKey change (changeFirst itemKey sourceKey change items source)
            sources := rfl
      rw [hturn, ih hkept hrest, changeFirst_eq_map hitems, List.map_map]
      refine List.map_congr_left fun item _ => ?_
      change joined itemKey sourceKey change sources (if _ then _ else _) = _
      rw [joined_cons]
      by_cases heq : sourceKey source = itemKey item
      · rw [if_pos heq, if_pos heq]
        refine joined_missing fun other hother hsame => hfirst ?_
        rw [heq, ← hkey item source, ← hsame]
        exact List.mem_map_of_mem hother
      · rw [if_neg heq, if_neg heq]

/-- Changing an item again by the same sources changes nothing. -/
theorem joined_joined {sources : List Source} {item : Item}
    (hagain : ∀ source ∈ sources, change (change item source) source = change item source) :
    joined itemKey sourceKey change sources (joined itemKey sourceKey change sources item) =
      joined itemKey sourceKey change sources item := by
  rw [joined, joined_key hkey]
  unfold joined
  cases hfind : sources.find? fun source => decide (sourceKey source = itemKey item) with
  | none => rfl
  | some source => exact hagain source (List.mem_of_find?_eq_some hfind)

end Keys

theorem joined_found {sources : List Source} (hsources : (sources.map sourceKey).Nodup)
    {source : Source} (hmem : source ∈ sources) {item : Item}
    (hsame : sourceKey source = itemKey item) :
    joined itemKey sourceKey change sources item = change item source := by
  induction sources with
  | nil => cases hmem
  | cons first sources ih =>
      obtain ⟨hfirst, hrest⟩ := List.nodup_cons.mp hsources
      rw [joined_cons]
      by_cases heq : sourceKey first = itemKey item
      · have hsource : source = first := by
          rcases List.mem_cons.mp hmem with hsource | hlater
          · exact hsource
          · have hkeys : sourceKey first = sourceKey source := heq.trans hsame.symm
            exact absurd (List.mem_map_of_mem hlater) (hkeys ▸ hfirst)
        rw [if_pos heq, hsource]
      · have hlater : source ∈ sources := by
          rcases List.mem_cons.mp hmem with rfl | hlater
          · exact absurd hsame heq
          · exact hlater
        rw [if_neg heq]
        exact ih hrest hlater

end ClusteredPoller.Library.Join
