import Mathlib.Algebra.Ring.Nat
import Mathlib.Data.Finset.Card
import Mathlib.Data.List.Basic

/-!
# Grouping by key

Items are put, one after another, into the first group with their key, or into
a new group behind the others.  In the end there is one group for each key, in
the order in which the keys first occur, and each has its items in their order.
-/

namespace ClusteredPoller.Library.Grouping

/-! ## Finding and changing one element of a list -/

section Modify

variable {First Second : Type}

theorem map_modify {convert : First → Second} {change : First → First}
    {changed : Second → Second}
    (hchange : ∀ value, convert (change value) = changed (convert value)) (values : List First)
    (index : Nat) :
    (values.modify index change).map convert = (values.map convert).modify index changed := by
  induction values generalizing index with
  | nil => simp
  | cons value values ih =>
      cases index with
      | zero => simp [hchange]
      | succ index => simp [ih]

theorem modify_append_cons (before : List First) (value : First) (after : List First)
    (change : First → First) :
    (before ++ value :: after).modify before.length change = before ++ change value :: after := by
  induction before with
  | nil => rfl
  | cons first before ih => simp [ih]

/-- The first match is found. -/
theorem findIdx?_append_cons {test : First → Bool} {before after : List First} {value : First}
    (hbefore : ∀ other ∈ before, test other = false) (hvalue : test value = true) :
    (before ++ value :: after).findIdx? test = some before.length := by
  induction before with
  | nil => simp [List.findIdx?_cons, hvalue]
  | cons first before ih =>
      have hfirst := hbefore first List.mem_cons_self
      have hrest := ih fun other hother => hbefore other (List.mem_cons_of_mem _ hother)
      simp [List.findIdx?_cons, hfirst, hrest]

/-- What stands behind another match is not found. -/
theorem findIdx?_ne_of_earlier {test : First → Bool} {values : List First} {earlier index : Nat}
    (hearlier : earlier < index) (hindex : index < values.length)
    (hsame : test values[earlier] = test values[index]) : values.findIdx? test ≠ some index := by
  intro hfound
  obtain ⟨_, hmatch, hfirst⟩ := List.findIdx?_eq_some_iff_getElem.mp hfound
  exact hfirst earlier hearlier (hsame.trans hmatch)

end Modify

/-! ## Groups -/

/-- A group starts with an item, so none is empty. -/
structure KeyGroup (Item : Type) where
  first : Item
  rest : List Item
  deriving DecidableEq

namespace KeyGroup

variable {Item : Type}

def items (group : KeyGroup Item) : List Item := group.first :: group.rest

def append (group : KeyGroup Item) (items : List Item) : KeyGroup Item :=
  { group with rest := group.rest ++ items }

@[simp]
theorem append_first (group : KeyGroup Item) (items : List Item) :
    (group.append items).first = group.first := rfl

@[simp]
theorem append_nil (group : KeyGroup Item) : group.append [] = group := by
  simp [append]

def map {Other : Type} (convert : Item → Other) (group : KeyGroup Item) : KeyGroup Other :=
  ⟨convert group.first, group.rest.map convert⟩

@[simp]
theorem map_items {Other : Type} (convert : Item → Other) (group : KeyGroup Item) :
    (group.map convert).items = group.items.map convert := rfl

theorem append_append (group : KeyGroup Item) (first second : List Item) :
    (group.append first).append second = group.append (first ++ second) := by
  simp [append]

end KeyGroup

variable {Item Key : Type} [DecidableEq Key] (key : Item → Key)

/-- Where the first group with a key stands. -/
def position (groups : List (KeyGroup Item)) (wanted : Key) : Option Nat :=
  groups.findIdx? fun group => decide (key group.first = wanted)

/-- Put an item into its group. -/
def place (groups : List (KeyGroup Item)) (item : Item) : List (KeyGroup Item) :=
  match position key groups (key item) with
  | some index => groups.modify index fun group => group.append [item]
  | none => groups ++ [⟨item, []⟩]

/-- The items with a key. -/
def having (wanted : Key) (items : List Item) : List Item :=
  items.filter fun item => decide (key item = wanted)

/-- The items with another key. -/
def lacking (unwanted : Key) (items : List Item) : List Item :=
  items.filter fun item => decide (key item ≠ unwanted)

/-- The keys, in the order in which they first occur. -/
def distinctKeys (items : List Item) : List Key := (items.map key).eraseDups

/-- The groups in which the items end. -/
def grouped : List Item → List (KeyGroup Item)
  | [] => []
  | item :: items =>
      ⟨item, having key (key item) items⟩ :: grouped (lacking key (key item) items)
termination_by items => items.length
decreasing_by exact Nat.lt_succ_of_le (List.length_filter_le _ _)

/-- No group has the key of the item. -/
def fresh (groups : List (KeyGroup Item)) (item : Item) : Bool :=
  groups.all fun group => decide (key group.first ≠ key item)

/-- No two groups have the same key. -/
def Distinct (groups : List (KeyGroup Item)) : Prop :=
  groups.Pairwise fun earlier group => key earlier.first ≠ key group.first

variable {key}

theorem position_eq_none {groups : List (KeyGroup Item)} {wanted : Key} :
    position key groups wanted = none ↔ ∀ group ∈ groups, key group.first ≠ wanted := by
  simp [position]

theorem position_cons (group : KeyGroup Item) (groups : List (KeyGroup Item)) (wanted : Key) :
    position key (group :: groups) wanted =
      if key group.first = wanted then some 0 else (position key groups wanted).map (· + 1) := by
  rw [position, List.findIdx?_cons]
  by_cases heq : key group.first = wanted
  · rw [if_pos heq, if_pos (decide_eq_true heq)]
  · rw [if_neg heq, if_neg (by simpa using heq)]
    rfl

/-- The group that is found. -/
theorem position_split {groups : List (KeyGroup Item)} {wanted : Key} {index : Nat}
    (hposition : position key groups wanted = some index) :
    ∃ before group after, groups = before ++ group :: after ∧ before.length = index := by
  obtain ⟨hindex, _⟩ := List.findIdx?_eq_some_iff_getElem.mp hposition
  refine ⟨groups.take index, groups[index], groups.drop (index + 1), ?_, ?_⟩
  · rw [List.cons_getElem_drop_succ, List.take_append_drop]
  · exact List.length_take_of_le (Nat.le_of_lt hindex)

/-! ## One item -/

theorem length_le_place (groups : List (KeyGroup Item)) (item : Item) :
    groups.length ≤ (place key groups item).length := by
  unfold place
  split
  · rw [List.length_modify]
  · rw [List.length_append]
    exact Nat.le_add_right _ _

theorem length_le_foldl_place (groups : List (KeyGroup Item)) (items : List Item) :
    groups.length ≤ (items.foldl (place key) groups).length := by
  induction items generalizing groups with
  | nil => exact Nat.le_refl _
  | cons item items ih => exact Nat.le_trans (length_le_place groups item) (ih _)

theorem place_new {groups : List (KeyGroup Item)} {item : Item}
    (hnew : ∀ group ∈ groups, key group.first ≠ key item) :
    place key groups item = groups ++ [⟨item, []⟩] := by
  rw [place, position_eq_none.mpr hnew]

/-- Among distinct groups, the first one with a key is the only one. -/
theorem place_old {groups : List (KeyGroup Item)} {item : Item} (hdistinct : Distinct key groups)
    (hold : ∃ group ∈ groups, key group.first = key item) :
    place key groups item = groups.map fun group =>
      if key group.first = key item then group.append [item] else group := by
  induction groups with
  | nil => simp at hold
  | cons group groups ih =>
      obtain ⟨hfirst, hrest⟩ := List.pairwise_cons.mp hdistinct
      by_cases heq : key group.first = key item
      · have hothers : groups.map (fun other =>
            if key other.first = key item then other.append [item] else other) = groups := by
          refine (List.map_congr_left fun other hother => ?_).trans (List.map_id groups)
          exact if_neg fun hsame => hfirst other hother (heq.trans hsame.symm)
        rw [List.map_cons, hothers, if_pos heq, place, position_cons, if_pos heq]
        rfl
      · have hold' : ∃ group ∈ groups, key group.first = key item := by
          obtain ⟨found, hfound, hkey⟩ := hold
          rcases List.mem_cons.mp hfound with rfl | hfound
          · exact absurd hkey heq
          · exact ⟨found, hfound, hkey⟩
        have hplace := ih hrest hold'
        cases hposition : position key groups (key item) with
        | none =>
            obtain ⟨found, hfound, hkey⟩ := hold'
            exact absurd hkey (position_eq_none.mp hposition found hfound)
        | some index =>
            rw [place, hposition] at hplace
            rw [List.map_cons, if_neg heq, ← hplace, place, position_cons, if_neg heq, hposition]
            rfl

theorem place_distinct {groups : List (KeyGroup Item)} (hdistinct : Distinct key groups)
    (item : Item) : Distinct key (place key groups item) := by
  by_cases hold : ∃ group ∈ groups, key group.first = key item
  · rw [place_old hdistinct hold, Distinct, List.pairwise_map]
    refine hdistinct.imp fun {earlier group} hne => ?_
    split <;> split <;> exact hne
  · rw [place_new fun group hgroup heq => hold ⟨group, hgroup, heq⟩, Distinct,
      List.pairwise_append]
    refine ⟨hdistinct, List.pairwise_singleton _ _, fun group hgroup other hother heq => ?_⟩
    rw [List.mem_singleton.mp hother] at heq
    exact hold ⟨group, hgroup, heq⟩

/-! ## All items -/

/-- Items go to the groups that are there, and the others make groups of
their own. -/
theorem foldl_place {groups : List (KeyGroup Item)} (hdistinct : Distinct key groups)
    (items : List Item) :
    items.foldl (place key) groups =
      groups.map (fun group => group.append (having key (key group.first) items)) ++
        grouped key (items.filter (fresh key groups)) := by
  induction items generalizing groups with
  | nil => simp [grouped, having]
  | cons item items ih =>
      rw [List.foldl_cons, ih (place_distinct hdistinct item)]
      by_cases hold : ∃ group ∈ groups, key group.first = key item
      · obtain ⟨found, hfound, hkey⟩ := hold
        rw [place_old hdistinct ⟨found, hfound, hkey⟩]
        have hfirst : ∀ group : KeyGroup Item,
            (if key group.first = key item then group.append [item] else group).first =
              group.first := fun group => by
          split <;> rfl
        have hitem : ¬fresh key groups item = true := by
          simpa [fresh] using ⟨found, hfound, hkey⟩
        rw [List.filter_cons_of_neg hitem]
        congr 1
        · rw [List.map_map]
          refine List.map_congr_left fun group hgroup => ?_
          by_cases heq : key group.first = key item
          · simp [having, heq, KeyGroup.append_append]
          · simp [having, heq, Ne.symm heq]
        · refine congrArg _ (List.filter_congr fun other _ => ?_)
          simp only [fresh, List.all_map, Function.comp_def, hfirst]
      · have hnew : ∀ group ∈ groups, key group.first ≠ key item := fun group hgroup heq =>
          hold ⟨group, hgroup, heq⟩
        have hitem : fresh key groups item = true := by simpa [fresh] using hnew
        rw [place_new hnew, List.filter_cons_of_pos hitem, grouped, List.map_append,
          List.append_assoc]
        congr 1
        · refine List.map_congr_left fun group hgroup => ?_
          rw [having, having,
            List.filter_cons_of_neg (by simpa using fun heq => hnew group hgroup heq.symm)]
        · have hsame : having key (key item) (items.filter (fresh key groups)) =
              having key (key item) items := by
            rw [having, having, List.filter_filter]
            refine List.filter_congr fun other _ => ?_
            by_cases heq : key other = key item
            · simpa [fresh, heq] using hnew
            · simp [heq]
          have hothers : lacking key (key item) (items.filter (fresh key groups)) =
              items.filter (fresh key (groups ++ [⟨item, []⟩])) := by
            rw [lacking, List.filter_filter]
            refine List.filter_congr fun other _ => ?_
            simp [fresh, Bool.and_comm, eq_comm]
          rw [hsame, hothers]
          rfl

/-- Placing the items one after another groups them. -/
theorem foldl_place_nil (items : List Item) : items.foldl (place key) [] = grouped key items := by
  have hall : items.filter (fresh key []) = items := by
    simp [fresh]
  have hfold := @foldl_place Item Key _ key [] List.Pairwise.nil items
  simpa [hall] using hfold

/-! ## What is in the groups -/

section Grouped

variable (items : List Item)

theorem grouped_distinct : Distinct key (grouped key items) := by
  rw [← foldl_place_nil]
  have hkeep : ∀ groups : List (KeyGroup Item), Distinct key groups →
      Distinct key (items.foldl (place key) groups) := by
    induction items with
    | nil => exact fun groups hdistinct => hdistinct
    | cons item items ih => exact fun groups hdistinct => ih _ (place_distinct hdistinct item)
  exact hkeep [] List.Pairwise.nil

theorem grouped_eq_nil_iff : grouped key items = [] ↔ items = [] := by
  cases items <;> simp [grouped]

/-- Converted items are grouped as the items are. -/
theorem grouped_map {Source : Type} (convert : Source → Item) (sources : List Source) :
    grouped key (sources.map convert) =
      (grouped (fun source => key (convert source)) sources).map (KeyGroup.map convert) := by
  induction sources using grouped.induct (fun source => key (convert source)) with
  | case1 => simp [grouped]
  | case2 source sources ih =>
      have hhaving : having key (key (convert source)) (sources.map convert) =
          (having (fun source => key (convert source)) (key (convert source)) sources).map
            convert := by
        simp [having, List.filter_map, Function.comp_def]
      have hlacking : lacking key (key (convert source)) (sources.map convert) =
          (lacking (fun source => key (convert source)) (key (convert source)) sources).map
            convert := by
        simp [lacking, List.filter_map, Function.comp_def]
      rw [List.map_cons, grouped, grouped, hhaving, hlacking, ih]
      rfl

/-- The groups are the keys in the order in which they first occur, each with
its items. -/
theorem grouped_eq_distinctKeys :
    (grouped key items).map (fun group => (key group.first, group.items)) =
      (distinctKeys key items).map fun wanted => (wanted, having key wanted items) := by
  unfold distinctKeys
  induction items using grouped.induct key with
  | case1 => simp [grouped]
  | case2 item items ih =>
      have hkeys : (items.map key).filter (fun wanted => !wanted == key item) =
          (lacking key (key item) items).map key := by
        rw [lacking, List.filter_map]
        refine congrArg _ (List.filter_congr fun other _ => ?_)
        by_cases heq : key other = key item <;> simp [heq]
      rw [grouped, List.map_cons, ih, List.map_cons, List.eraseDups_cons, List.map_cons, hkeys]
      congr 1
      · simp [KeyGroup.items, having]
      · refine List.map_congr_left fun wanted hwanted => ?_
        have hother : wanted ≠ key item := by
          rintro rfl
          obtain ⟨other, hother, heq⟩ := List.mem_map.mp (List.mem_eraseDups.mp hwanted)
          exact (of_decide_eq_true (List.mem_filter.mp hother).2) heq
        have hsame : having key wanted (lacking key (key item) items) =
            having key wanted (item :: items) := by
          rw [having, having, lacking, List.filter_filter,
            List.filter_cons_of_neg (by simpa using hother.symm)]
          refine List.filter_congr fun other _ => ?_
          by_cases heq : key other = wanted
          · simp [heq, hother]
          · simp [heq]
        rw [hsame]

/-- There is one group for each key. -/
theorem length_grouped_eq_card :
    (grouped key items).length = (items.map key).toFinset.card := by
  induction items using grouped.induct key with
  | case1 => simp [grouped]
  | case2 item items ih =>
      have hkeys : ((item :: items).map key).toFinset =
          insert (key item) ((lacking key (key item) items).map key).toFinset := by
        ext wanted
        simp only [List.map_cons, List.toFinset_cons, Finset.mem_insert, List.mem_toFinset,
          List.mem_map, lacking, List.mem_filter, decide_eq_true_eq]
        constructor
        · rintro (heq | ⟨other, hother, rfl⟩)
          · exact Or.inl heq
          · by_cases heq : key other = key item
            · exact Or.inl heq
            · exact Or.inr ⟨other, ⟨hother, heq⟩, rfl⟩
        · rintro (heq | ⟨other, ⟨hother, _⟩, rfl⟩)
          · exact Or.inl heq
          · exact Or.inr ⟨other, hother, rfl⟩
      have hnew : key item ∉ ((lacking key (key item) items).map key).toFinset := by
        simp [lacking]
      rw [grouped, List.length_cons, ih, hkeys, Finset.card_insert_of_notMem hnew]

theorem length_grouped : ((grouped key items).map fun group => group.items.length).sum =
    items.length := by
  induction items using grouped.induct key with
  | case1 => simp [grouped]
  | case2 item items ih =>
      have hsplit : items.length =
          (having key (key item) items).length + (lacking key (key item) items).length := by
        simpa [having, lacking] using
          List.length_eq_length_filter_add fun other => decide (key other = key item)
      rw [grouped, List.map_cons, List.sum_cons, ih]
      simp only [List.length_cons, KeyGroup.items]
      omega

/-- A relation holds within each group if it holds between items with one key. -/
theorem pairwise_grouped_iff {related : Item → Item → Prop} :
    (∀ group ∈ grouped key items, group.items.Pairwise related) ↔
      items.Pairwise fun first second => key first = key second → related first second := by
  induction items using grouped.induct key with
  | case1 => simp [grouped]
  | case2 item items ih =>
      rw [grouped, List.forall_mem_cons, ih, List.pairwise_cons, KeyGroup.items, List.pairwise_cons,
        having, lacking, List.pairwise_filter, List.pairwise_filter]
      simp only [List.mem_filter, decide_eq_true_eq]
      constructor
      · rintro ⟨⟨hfirst, hsame⟩, hothers⟩
        refine ⟨fun other hother heq => hfirst other ⟨hother, heq.symm⟩, ?_⟩
        refine (hsame.and hothers).imp fun {first second} hboth heq => ?_
        by_cases hkey : key first = key item
        · exact hboth.1 hkey (heq ▸ hkey)
        · exact hboth.2 hkey (heq ▸ hkey) heq
      · rintro ⟨hfirst, hrest⟩
        refine ⟨⟨fun other hother => hfirst other hother.1 hother.2.symm, ?_⟩, ?_⟩
        · exact hrest.imp fun hrelated hone htwo => hrelated (hone.trans htwo.symm)
        · exact hrest.imp fun hrelated _ _ heq => hrelated heq

end Grouped

end ClusteredPoller.Library.Grouping
