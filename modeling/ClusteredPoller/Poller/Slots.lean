import ClusteredPoller.Library.Grouping
import ClusteredPoller.Poller.RowHistory

/-!
# Inserts as groups

Storing values one after another groups them by table: the slots of the inserts
hold the groups from the front.  This goes on until a value of a further table
finds all slots taken, and then the assertion fails.
-/

namespace ClusteredPoller.Poller

open Library.Grouping (KeyGroup position place Distinct place_distinct position_cons
  position_split map_modify modify_append_cons length_le_foldl_place grouped foldl_place_nil)
open Library.Outcome

/-- A value and the table that it is stored under. -/
abbrev Push := Option CString × ClinsertValue

/-- What an insert says. -/
def Clinsert.contents (insert : Clinsert) : Option CString × List ClinsertValue :=
  (insert.table, insert.values)

/-- What the insert of a group says. -/
def insertOf (group : KeyGroup Push) : Option CString × List ClinsertValue :=
  (group.first.1, group.items.map Prod.snd)

/-- What the slots say when they hold these groups. -/
def slotsOf (groups : List (KeyGroup Push)) (free : Nat) :
    List (Option (Option CString × List ClinsertValue)) :=
  groups.map (fun group => some (insertOf group)) ++ List.replicate free none

/-- The slots hold the groups from the front; each group has a table of its own. -/
structure Stores (inserts : Inserts) (groups : List (KeyGroup Push)) : Prop where
  slots : inserts.map (Option.map Clinsert.contents) = slotsOf groups (maxTables - groups.length)
  room : groups.length ≤ maxTables
  distinct : Distinct Prod.fst groups
  named : ∀ group ∈ groups, group.first.1.isSome

theorem stores_noInserts : Stores noInserts [] where
  slots := by simp [noInserts, slotsOf]
  room := Nat.zero_le _
  distinct := List.Pairwise.nil
  named _ himpossible := nomatch himpossible

/-! ## One value -/

/-- The slot of a table is that of its group, or the first free one. -/
theorem clinsertForTable_slots {inserts : Inserts} {groups : List (KeyGroup Push)} {free : Nat}
    (hslots : inserts.map (Option.map Clinsert.contents) = slotsOf groups free)
    (hnamed : ∀ group ∈ groups, group.first.1.isSome) {table : Option CString}
    (htable : table.isSome) :
    clinsertForTable inserts table =
      match position Prod.fst groups table with
      | some index => .ok (inserts, index)
      | none =>
          if free = 0 then .error .assertion
          else .ok (inserts.set groups.length (some (clinsertCreate table)), groups.length) := by
  induction groups generalizing inserts with
  | nil =>
      cases inserts with
      | nil =>
          have hfree : List.replicate free none = [] := hslots.symm
          rw [(List.replicate_eq_nil_iff none).mp hfree]
          rfl
      | cons slot rest =>
          cases free with
          | zero => cases hslots
          | succ free =>
              have hslot : slot = none :=
                Option.map_eq_none_iff.mp (List.cons.inj hslots).1
              rw [hslot]
              rfl
  | cons group groups ih =>
      cases inserts with
      | nil => cases hslots
      | cons slot rest =>
          obtain ⟨hslot, hrest⟩ := List.cons.inj hslots
          obtain ⟨insert, rfl, hcontents⟩ := Option.map_eq_some_iff.mp hslot
          have hfirst : insert.table = group.first.1 := congrArg Prod.fst hcontents
          obtain ⟨hgroup, hgroups⟩ := List.forall_mem_cons.mp hnamed
          rw [clinsertForTable, hfirst, strcmpEqual_some hgroup htable, ok_bind, position_cons,
            ih hrest hgroups]
          by_cases heq : group.first.1 = table
          · rw [if_pos (decide_eq_true heq), if_pos heq]
            rfl
          · rw [if_neg (by simpa using heq), if_neg heq]
            cases position Prod.fst groups table with
            | some index => rfl
            | none => by_cases hfree : free = 0 <;> simp [hfree]

theorem insertOf_append (group : KeyGroup Push) (push : Push) :
    insertOf (group.append [push]) =
      ((insertOf group).1, (insertOf group).2 ++ [push.2]) := by
  simp [insertOf, KeyGroup.append, KeyGroup.items]

theorem contents_push (value : ClinsertValue) (slot : Option Clinsert) :
    (slot.map fun insert => clinsertPushValue insert value).map Clinsert.contents =
      (slot.map Clinsert.contents).map fun contents => (contents.1, contents.2 ++ [value]) := by
  cases slot <;> rfl

section Store

variable {inserts : Inserts} {groups : List (KeyGroup Push)} {push : Push}

theorem Stores.store_old (stores : Stores inserts groups) (htable : push.1.isSome) {index : Nat}
    (hposition : position Prod.fst groups push.1 = some index) :
    ∃ after, storeValue inserts push.1 push.2 = .ok after ∧
      Stores after (place Prod.fst groups push) := by
  have hfound := clinsertForTable_slots stores.slots stores.named htable
  have hdistinct := place_distinct stores.distinct push
  rw [hposition] at hfound
  rw [place, hposition] at hdistinct ⊢
  dsimp only at hfound hdistinct ⊢
  obtain ⟨before, group, after, rfl, rfl⟩ := position_split hposition
  rw [modify_append_cons] at hdistinct ⊢
  have hroom := stores.room
  have hnamed := stores.named
  rw [storeValue, hfound]
  refine ⟨_, rfl, ?_, ?_, hdistinct, ?_⟩
  · have hmodify := modify_append_cons (before.map fun group => some (insertOf group))
      (some (insertOf group))
      (after.map (fun group => some (insertOf group)) ++
        List.replicate (maxTables - (before ++ group :: after).length) none)
      (Option.map fun contents => (contents.1, contents.2 ++ [push.2]))
    rw [List.length_map] at hmodify
    dsimp only
    rw [pushAt, map_modify (contents_push push.2), stores.slots, slotsOf, List.map_append,
      List.map_cons, List.append_assoc, List.cons_append, hmodify, slotsOf]
    simp [insertOf_append]
  · simpa using hroom
  · intro other hother
    rcases List.mem_append.mp hother with hbefore | hothers
    · exact hnamed other (List.mem_append_left _ hbefore)
    · rcases List.mem_cons.mp hothers with rfl | hafter
      · exact hnamed group (List.mem_append_right _ List.mem_cons_self)
      · exact hnamed other (List.mem_append_right _ (List.mem_cons_of_mem _ hafter))

theorem Stores.store_new (stores : Stores inserts groups) (htable : push.1.isSome)
    (hposition : position Prod.fst groups push.1 = none) (hroom : groups.length < maxTables) :
    ∃ after, storeValue inserts push.1 push.2 = .ok after ∧
      Stores after (place Prod.fst groups push) := by
  have hfound := clinsertForTable_slots stores.slots stores.named htable
  have hdistinct := place_distinct stores.distinct push
  have hslots := stores.slots
  rw [hposition] at hfound
  rw [place, hposition] at hdistinct ⊢
  dsimp only at hfound hdistinct ⊢
  obtain ⟨free, hfree⟩ : ∃ free, maxTables - groups.length = free + 1 :=
    Nat.exists_eq_succ_of_ne_zero (Nat.sub_ne_zero_of_lt hroom)
  rw [hfree] at hslots hfound
  rw [if_neg (Nat.succ_ne_zero free)] at hfound
  rw [storeValue, hfound]
  refine ⟨_, rfl, ?_, ?_, hdistinct, ?_⟩
  · have hrest : maxTables - (groups ++ [(⟨push, []⟩ : KeyGroup Push)]).length = free := by
      rw [List.length_append, List.length_singleton]
      omega
    have hmodify := modify_append_cons (groups.map fun group => some (insertOf group))
      (some (push.1, ([] : List ClinsertValue))) (List.replicate free none)
      (Option.map fun contents => (contents.1, contents.2 ++ [push.2]))
    rw [List.length_map] at hmodify
    dsimp only
    rw [pushAt, map_modify (contents_push push.2), List.map_set, hslots, slotsOf,
      List.replicate_succ, List.set_append_right _ _ (by simp)]
    simp only [List.length_map, Nat.sub_self, List.set_cons_zero]
    rw [hrest]
    refine Eq.trans hmodify ?_
    simp [slotsOf, insertOf, KeyGroup.items]
  · rw [List.length_append, List.length_singleton]
    exact hroom
  · intro other hother
    rcases List.mem_append.mp hother with hold | hnew
    · exact stores.named other hold
    · rw [List.mem_singleton.mp hnew]
      exact htable

theorem Stores.store_full (stores : Stores inserts groups) (htable : push.1.isSome)
    (hposition : position Prod.fst groups push.1 = none) (hfull : groups.length = maxTables) :
    storeValue inserts push.1 push.2 = .error .assertion := by
  have hfound := clinsertForTable_slots stores.slots stores.named htable
  rw [hposition, hfull, Nat.sub_self] at hfound
  rw [storeValue, hfound]
  rfl

end Store

/-! ## All values -/

/-- Values are stored as long as their tables have slots; a value of a further
table fails the assertion. -/
theorem Stores.storeAll_cases {inserts : Inserts} {groups : List (KeyGroup Push)}
    (stores : Stores inserts groups) {pushes : List Push}
    (htables : ∀ push ∈ pushes, push.1.isSome) :
    ((pushes.foldl (place Prod.fst) groups).length ≤ maxTables ∧
        ∃ after, storeAll inserts pushes = .ok after ∧
          Stores after (pushes.foldl (place Prod.fst) groups)) ∨
      maxTables < (pushes.foldl (place Prod.fst) groups).length ∧
        storeAll inserts pushes = .error .assertion := by
  induction pushes generalizing inserts groups with
  | nil => exact Or.inl ⟨stores.room, inserts, rfl, stores⟩
  | cons push pushes ih =>
      obtain ⟨htable, hrest⟩ := List.forall_mem_cons.mp htables
      rw [List.foldl_cons, storeAll]
      cases hposition : position Prod.fst groups push.1 with
      | some index =>
          obtain ⟨middle, hmiddle, hstores⟩ := stores.store_old htable hposition
          rw [hmiddle]
          exact ih hstores hrest
      | none =>
          rcases Nat.lt_or_ge groups.length maxTables with hroom | hfull
          · obtain ⟨middle, hmiddle, hstores⟩ := stores.store_new htable hposition hroom
            rw [hmiddle]
            exact ih hstores hrest
          · have hlength : groups.length = maxTables := Nat.le_antisymm stores.room hfull
            have hmany :=
              @length_le_foldl_place Push _ _ Prod.fst (place Prod.fst groups push) pushes
            have hplace : (place Prod.fst groups push).length = maxTables + 1 := by
              rw [place, hposition, List.length_append, hlength]
              rfl
            refine Or.inr ⟨by omega, ?_⟩
            rw [stores.store_full htable hposition hlength]
            rfl

/-- A single value is compared with none, so it needs no table. -/
theorem storeAll_single (push : Push) :
    ∃ inserts, storeAll noInserts [push] = .ok inserts ∧
      inserts.map (Option.map Clinsert.contents) =
        slotsOf (grouped Prod.fst [push]) (maxTables - (grouped Prod.fst [push]).length) := by
  have hgroup : grouped Prod.fst [push] = [⟨push, []⟩] := (foldl_place_nil [push]).symm
  rw [hgroup]
  exact ⟨_, rfl, rfl⟩

/-- From empty slots, all values are stored when their tables have slots. -/
theorem storeAll_slots {pushes : List Push}
    (hnamed : 1 < pushes.length → ∀ push ∈ pushes, push.1.isSome)
    (hfew : (grouped Prod.fst pushes).length ≤ maxTables) :
    ∃ inserts, storeAll noInserts pushes = .ok inserts ∧
      inserts.map (Option.map Clinsert.contents) =
        slotsOf (grouped Prod.fst pushes) (maxTables - (grouped Prod.fst pushes).length) := by
  rcases Nat.lt_or_ge 1 pushes.length with hmore | hone
  · have hcases := stores_noInserts.storeAll_cases (hnamed hmore)
    rw [foldl_place_nil] at hcases
    rcases hcases with ⟨_, inserts, hstored, stores⟩ | ⟨hmany, _⟩
    · exact ⟨inserts, hstored, stores.slots⟩
    · exact absurd hfew (Nat.not_le.mpr hmany)
  · match pushes with
    | [] =>
        have hgroup : grouped Prod.fst ([] : List Push) = [] := (foldl_place_nil []).symm
        rw [hgroup]
        exact ⟨noInserts, rfl, stores_noInserts.slots⟩
    | [push] => exact storeAll_single push

end ClusteredPoller.Poller
